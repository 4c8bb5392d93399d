import Mathlib.Data.List.Induction
import Mathlib.Data.List.Nodup
import VideoOutput.Proofs.Access
import VideoOutput.Proofs.Naming

/-!
# The geometries of a list of codes

A display lists mode codes. As an identification code, a code may stand for a geometry
(`StandsFor`), and the geometries of the list are gathered code by code: one that was met before is
passed over, a new one goes to the end (`geometriesOf_append_singleton`). What holds of the gathered
geometries is kept by every further code, so it holds of all lists (`isGeometriesOf_geometriesOf`).

Geometries and named resolutions come from two tables that know nothing of each other. They agree:
the code that the platform's map has for a resolution stands for the geometry of this resolution
(`standsFor_of_row`). So whatever resolution a listed code is resolved to, or is selected for it,
its geometry is among those gathered (`geometries_agree`).

Identification codes have eight bits and mode codes more, so a mode code beyond 255 stands for no
geometry, whatever its lower byte is. Several codes may stand for one geometry, and then it is the
first one on the list that places it. Induction is from the back of the list, since gathering goes
from the front and keeps what it has found.
-/

namespace VideoOutput

open Mode (Geometry ModeCode Resolution)

/-! ## Codes and geometries -/

namespace Mode.Catalog

variable {catalog : Catalog} {fallback : String} {code : ModeCode} {g : Geometry}
  {r : Resolution}

/-- The code is declared as an identification code of the geometry. -/
def StandsFor (code : ModeCode) (g : Geometry) : Prop :=
  ∃ vic : UInt8, vic.toNat = code.toNat ∧ ⟨vic, g⟩ ∈ VicTable.declared

/-- The lookup finds the geometry that a code stands for. -/
theorem geometryOf?_eq_some_iff_standsFor : geometryOf? code = some g ↔ StandsFor code g :=
  geometryOf?_eq_some_iff

/-- A code stands for at most one geometry. -/
theorem StandsFor.unique {g' : Geometry} (h : StandsFor code g) (h' : StandsFor code g') :
    g = g' := by
  have hg := geometryOf?_eq_some_iff_standsFor.mpr h
  have hg' := geometryOf?_eq_some_iff_standsFor.mpr h'
  exact Option.some.inj (hg.symm.trans hg')

/-- **The tables agree**: the code of a resolution stands for its geometry. -/
theorem standsFor_of_row (hr : r ∈ Resolution.advertised)
    (hrow : ⟨r.name, code⟩ ∈ platformModes) : StandsFor code r.geometry := by
  have hall : ∀ row ∈ platformModes, ∀ r ∈ Resolution.advertised, r.name = row.name →
      geometryOf? row.code = some r.geometry := by decide +kernel
  exact geometryOf?_eq_some_iff_standsFor.mp (hall _ hrow r hr rfl)

/-- A code stands for the geometry of what it is resolved to, by its name as well as without one. -/
theorem standsFor_of_resolutionOf? (h : withFallback fallback = .ok catalog)
    (hr : catalog.resolutionOf? code = some r) : StandsFor code r.geometry := by
  obtain ⟨hresolutions, hmodes, hconsistent, -⟩ := withFallback_eq_ok_iff.mp h
  cases hname : catalog.nameOf? code with
  | some name =>
    obtain ⟨r', hnamed, hr'⟩ := exists_resolutionOf?_of_nameOf? hconsistent hname
    obtain rfl := Option.some.inj (hr'.symm.trans hr)
    have hrow := (nameOf?_eq_some_iff hconsistent).mp hname
    rw [← (hnamed.2 r' hnamed.1).mpr rfl, hmodes] at hrow
    exact standsFor_of_row (hresolutions ▸ hnamed.1) hrow
  | none =>
    obtain ⟨vic, g, hvic, hdeclared, hfirst⟩ :=
      (resolutionOf?_eq_some_iff_of_unnamed hname).mp hr
    obtain ⟨-, -, -, hgeometry, -⟩ := hfirst
    rw [hgeometry]
    exact ⟨vic, hvic, hdeclared⟩

/-- A selected resolution has the geometry that one of the codes stands for. -/
theorem exists_standsFor_of_mem_accepted (h : withFallback fallback = .ok catalog)
    {codes : List ModeCode} (hr : r ∈ catalog.accepted codes) :
    ∃ code ∈ codes, StandsFor code r.geometry := by
  obtain ⟨hresolutions, hmodes, hconsistent, -⟩ := withFallback_eq_ok_iff.mp h
  obtain ⟨hmem, code, hcode, hrow⟩ := (mem_accepted_iff hconsistent).mp hr
  rw [hresolutions] at hmem
  rw [hmodes] at hrow
  exact ⟨code, hcode, standsFor_of_row hmem hrow⟩

end Mode.Catalog

/-! ## Gathering -/

namespace Controller

open Mode.Catalog (StandsFor geometryOf?_eq_some_iff_standsFor)

variable {codes : List ModeCode} {code : ModeCode} {found : List Geometry}

/-- In the list of codes one geometry is met before another: a code stands for it, and no earlier
one for the other. -/
def IsMetBefore (codes : List ModeCode) (g g' : Geometry) : Prop :=
  ∃ before code after, codes = before ++ code :: after ∧ StandsFor code g ∧
    ∀ earlier ∈ before, ¬ StandsFor earlier g'

/-- The geometries that a list of codes stands for. -/
structure IsGeometriesOf (codes : List ModeCode) (list : List Geometry) : Prop where
  /-- None is there twice, -/
  nodup : list.Nodup
  /-- all of them are there and no others, -/
  members : ∀ g, g ∈ list ↔ ∃ code ∈ codes, StandsFor code g
  /-- and they are in the order in which they are first met. -/
  order : list.Pairwise (IsMetBefore codes)

/-- What was gathered so far, and one more code. -/
def gather (found : List Geometry) (code : ModeCode) : List Geometry :=
  match Mode.Catalog.geometryOf? code with
  | some g => if g ∈ found then found else found ++ [g]
  | none => found

/-- The geometries are gathered code by code. -/
theorem geometriesOf_append_singleton (codes : List ModeCode) (code : ModeCode) :
    geometriesOf (codes ++ [code]) = gather (geometriesOf codes) code := by
  unfold geometriesOf gather
  rw [List.filterMap_append, List.eraseDups_append]
  cases hg : Mode.Catalog.geometryOf? code with
  | none => simp [hg, List.removeAll]
  | some g =>
    have hone : [code].filterMap Mode.Catalog.geometryOf? = [g] := by simp [hg]
    simp only [hone, List.removeAll, List.mem_eraseDups]
    by_cases hmem : g ∈ codes.filterMap Mode.Catalog.geometryOf?
    · rw [if_pos hmem, List.filter_cons_of_neg (by simpa using hmem)]
      simp
    · rw [if_neg hmem, List.filter_cons_of_pos (by simpa using hmem)]
      simp [List.eraseDups_cons]

/-- What was met first stays so when a code is added behind. -/
theorem IsMetBefore.append {g g' : Geometry} (h : IsMetBefore codes g g') (code : ModeCode) :
    IsMetBefore (codes ++ [code]) g g' := by
  obtain ⟨before, first, after, rfl, hfirst, hbefore⟩ := h
  exact ⟨before, first, after ++ [code], by simp, hfirst, hbefore⟩

theorem isGeometriesOf_nil : IsGeometriesOf [] [] :=
  ⟨List.nodup_nil, by simp, List.Pairwise.nil⟩

/-- A code that stands for nothing, or for what was met before, changes nothing. -/
theorem IsGeometriesOf.of_old (h : IsGeometriesOf codes found)
    (hold : ∀ g, StandsFor code g → g ∈ found) : IsGeometriesOf (codes ++ [code]) found := by
  refine ⟨h.nodup, ?_, h.order.imp fun hmet => hmet.append code⟩
  intro g
  rw [h.members]
  constructor
  · intro hmet
    obtain ⟨earlier, hearlier, hstands⟩ := hmet
    exact ⟨earlier, List.mem_append_left _ hearlier, hstands⟩
  · intro hmet
    obtain ⟨listed, hlisted, hstands⟩ := hmet
    rcases List.mem_append.mp hlisted with hearlier | hlast
    · exact ⟨listed, hearlier, hstands⟩
    · rw [List.mem_singleton.mp hlast] at hstands
      exact (h.members g).mp (hold g hstands)

/-- A new geometry goes to the end. -/
theorem IsGeometriesOf.of_new (h : IsGeometriesOf codes found) {g : Geometry}
    (hstands : StandsFor code g) (hnew : g ∉ found) :
    IsGeometriesOf (codes ++ [code]) (found ++ [g]) := by
  refine ⟨?nodup, ?members, ?order⟩
  case nodup =>
    rw [← List.concat_eq_append]
    exact h.nodup.concat hnew
  case members =>
    intro g'
    rw [List.mem_append, h.members, List.mem_singleton]
    constructor
    · intro hg'
      rcases hg' with hmet | rfl
      · obtain ⟨earlier, hearlier, hstands'⟩ := hmet
        exact ⟨earlier, List.mem_append_left _ hearlier, hstands'⟩
      · exact ⟨code, by simp, hstands⟩
    · intro hmet
      obtain ⟨listed, hlisted, hstands'⟩ := hmet
      rcases List.mem_append.mp hlisted with hearlier | hlast
      · exact .inl ⟨listed, hearlier, hstands'⟩
      · rw [List.mem_singleton.mp hlast] at hstands'
        exact .inr (hstands'.unique hstands)
  case order =>
    refine List.pairwise_append.mpr ⟨h.order.imp fun hmet => hmet.append code,
      List.pairwise_singleton _ _, ?_⟩
    intro g' hg' last hlast
    rw [List.mem_singleton.mp hlast]
    -- the code that brought in `g'` came earlier, and none before it stood for the new one
    obtain ⟨earlier, hearlier, hstands'⟩ := (h.members g').mp hg'
    obtain ⟨before, after, rfl⟩ := List.append_of_mem hearlier
    refine ⟨before, earlier, after ++ [code], by simp, hstands', ?_⟩
    intro other hother hstands''
    exact hnew ((h.members g).mpr ⟨other, List.mem_append_left _ hother, hstands''⟩)

/-- What is gathered stays right with every further code. -/
theorem IsGeometriesOf.gather (h : IsGeometriesOf codes found) (code : ModeCode) :
    IsGeometriesOf (codes ++ [code]) (gather found code) := by
  unfold Controller.gather
  split
  next g hg =>
    have hstands := geometryOf?_eq_some_iff_standsFor.mp hg
    split
    next hmem =>
      refine h.of_old ?_
      intro g' hstands'
      rw [hstands'.unique hstands]
      exact hmem
    next hnew => exact h.of_new hstands hnew
  next hnone =>
    refine h.of_old ?_
    intro g' hstands'
    have hsome := geometryOf?_eq_some_iff_standsFor.mpr hstands'
    exact absurd (hnone.symm.trans hsome) (by simp)

/-- **The geometries of a list of codes** are those it stands for, each once, in the order in which
they are first met. -/
theorem isGeometriesOf_geometriesOf (codes : List ModeCode) :
    IsGeometriesOf codes (geometriesOf codes) := by
  induction codes using List.reverseRecOn with
  | nil => exact isGeometriesOf_nil
  | append_singleton codes code ih =>
    rw [geometriesOf_append_singleton]
    exact ih.gather code

/-! ## Asking for them -/

variable {σ : Type} [Firmware σ] {c : Controller} {h : Handle}

/-- An HDMI connector is told the geometries of what the firmware lists. -/
theorem performOn_geometries {x : Connector} {fw : σ} (hx : c.resolve h = .ok x)
    (hkind : x.kind = .hdmi) (hcodes : (Firmware.modes fw).answer = .ok codes) :
    (c.performOn fw h .geometries).result = .ok (.geometries (geometriesOf codes)) := by
  have hr : c.resolveHdmi h .listResolutions = .ok x := resolveHdmi_eq_ok_iff.mpr ⟨hx, hkind⟩
  simp only [performOn, Outcome.answering, geometries, hr, hcodes]
  rfl

end Controller

namespace Assembly

open Controller (IsGeometriesOf)

variable {σ : Type} [Firmware σ]

/-- **Geometries agree with resolutions.** For valid settings, in every state that a controller can
reach and over any firmware, a request for the geometries that is not refused is answered with those
that the listed codes stand for, each once and in order of first occurrence. And whatever resolution
a listed code is resolved to, and whatever resolution is selected for the list, its geometry is among
them. -/
theorem geometries_agree {settings : Settings} (id : Connector.QueueId) (fw : σ)
    (hvalid : settings.check = .ok settings) :
    ∃ a, fresh id settings fw = .ok a ∧ ∀ steps (fw' : σ) h codes,
      settings.refusal? (a.run steps).controller h .geometries = none →
      (Firmware.modes fw').answer = .ok codes →
        ∃ list, ((a.run steps).controller.performOn fw' h .geometries).result =
            .ok (.geometries list) ∧
          IsGeometriesOf codes list ∧
          (∀ code ∈ codes, ∀ r,
            (a.run steps).controller.catalog.resolutionOf? code = some r → r.geometry ∈ list) ∧
          ∀ r ∈ (a.run steps).controller.catalog.accepted codes, r.geometry ∈ list := by
  obtain ⟨catalog, hcat, hmade⟩ := Controller.ofSettings_of_check hvalid id
  have hfresh : fresh id settings fw = .ok ⟨.initial id settings catalog, fw⟩ := by
    unfold fresh
    rw [hmade]
    rfl
  refine ⟨_, hfresh, ?_⟩
  intro steps fw' h codes hgranted hcodes
  have hcat' : Mode.Catalog.withFallback settings.fallback =
      .ok ((Assembly.mk (.initial id settings catalog) fw).run steps).controller.catalog := by
    rw [(sameSetup_run _ steps).catalog]
    exact hcat
  obtain ⟨x, hx, hlack⟩ :=
    Controller.exists_resolve_of_refusal?_eq_none (places_run steps) hgranted
  have hkind := Controller.HandleRequest.kind_of_lacking?_eq_none hlack rfl
  -- the list is the one of the codes alone; what the catalog has to do with it comes last
  have hlist := Controller.isGeometriesOf_geometriesOf codes
  refine ⟨_, Controller.performOn_geometries hx hkind hcodes, hlist, ?_, ?_⟩
  · intro code hcode r hr
    exact (hlist.members _).mpr ⟨code, hcode, Mode.Catalog.standsFor_of_resolutionOf? hcat' hr⟩
  · intro r hr
    exact (hlist.members _).mpr (Mode.Catalog.exists_standsFor_of_mem_accepted hcat' hr)

/-- A display lists a mode beyond the table, two of one geometry, and 272, which is no
identification code although its low byte is one. The mode 63 has no name, and is resolved to a
resolution of its geometry. -/
theorem geometries_agree_after_start :
    ∃ a, fresh 0 {} (⟨.fresh [] [300, 63, 2, 16, 272] true, {}⟩ : Display) = .ok a ∧
      ∃ list, ((a.run [.request .start]).controller.performOn
          (a.run [.request .start]).firmware ⟨.hdmi, 0, 1⟩ .geometries).result =
            .ok (.geometries list) ∧
        IsGeometriesOf [300, 63, 2, 16, 272] list ∧ list = [.hd1080, .sd480] ∧
        ∃ r, (a.run [.request .start]).controller.catalog.resolutionOf? 63 = some r ∧
          r.geometry ∈ list := by
  obtain ⟨a, hfresh, hall⟩ := geometries_agree 0
    (⟨.fresh [] [300, 63, 2, 16, 272] true, {}⟩ : Display) (rfl : Settings.check {} = .ok {})
  have hstart := hall [.request .start] (a.run [.request .start]).firmware ⟨.hdmi, 0, 1⟩
    [300, 63, 2, 16, 272]
  obtain rfl := Except.ok.inj hfresh
  obtain ⟨list, hlist, hof, hresolved, -⟩ := hstart rfl rfl
  refine ⟨_, hfresh, list, hlist, hof, ?_, _, rfl, hresolved 63 (by decide) _ rfl⟩
  exact Controller.Answer.geometries.inj (Except.ok.inj hlist).symm

end Assembly

end VideoOutput

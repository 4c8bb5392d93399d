import Mathlib
import VideoOutput.Proofs.Access
import VideoOutput.Proofs.Description
import VideoOutput.Proofs.Link
import VideoOutput.Proofs.Reading
import VideoOutput.Proofs.UnknownNames

/-!
# The display command

The command runs a controller over a simulated display that is attached all the time and never
fails, so few of the errors along its way can happen. Each request is given its outcome over that
display (`Firmware.Simulator.running`), from what a controller keeps during the command
(`Controller.Serves`); the report is then found by putting the outcomes one after the other.

`Serves` is the invariant of the session: the catalog and the policy are those of the settings, and
the handle at hand is accepted and names an HDMI connector with a display. Every request keeps it. A
report, in turn, is known by how it ends: what it printed and with which failure, if any
(`Report.Ends`). A question that fails ends the report at once, so the first error decides.

Whether a requested resolution can be shown is decided by the modes that the display offers
(`CanShow`), and what is shown then is the requested resolution or that of the fallback (`IsShown`).
Without a request it is the resolution of the first mode.

`isDisplayReport_of_check` tells when the command succeeds and what is printed, for every blob,
every list of modes and every name.
-/

namespace VideoOutput

open Mode (Catalog)

namespace Mode.Catalog

/-- How a code is resolved does not depend on the fallback. -/
theorem resolutionOf?_of_withFallback {catalog : Catalog} {fallback : String}
    (h : withFallback fallback = .ok catalog) (code : ModeCode) :
    catalog.resolutionOf? code = platform.resolutionOf? code := by
  obtain ⟨hresolutions, hmodes, -⟩ := withFallback_eq_ok_iff.mp h
  have htables : catalog = ⟨Resolution.advertised, platformModes, catalog.fallback⟩ := by
    rw [← hresolutions, ← hmodes]
  rw [htables]
  rfl

end Mode.Catalog

/-! ## The display -/

namespace Firmware.Simulator

variable {blob : List UInt8} {codes : List Mode.ModeCode} {mode code : Mode.ModeCode}

/-- The attached display while its service is running. -/
def running (blob : List UInt8) (codes : List Mode.ModeCode) (mode : Mode.ModeCode) : Simulator :=
  { fresh blob codes true with mode, isActive := true, attached := some 0 }

theorem readBlob_running :
    Firmware.readBlob (running blob codes mode) = ⟨.ok blob, running blob codes mode, []⟩ := rfl

theorem modes_running :
    Firmware.modes (running blob codes mode) = ⟨.ok codes, running blob codes mode, []⟩ := rfl

theorem linkState_running :
    Firmware.linkState (running blob codes mode) =
      ⟨.ok (running blob codes mode).currentLink, running blob codes mode,
        Catalog.platform.resolutionOfLog mode⟩ := rfl

theorem setMode_running_of_mem (h : code ∈ codes) :
    Firmware.setMode code (running blob codes mode) = ⟨.ok (), running blob codes code, []⟩ := by
  show (running blob codes mode).useMode code = _
  unfold useMode
  rw [if_neg (by simp [running, fresh, h])]
  rfl

theorem setMode_running_of_notMem (h : code ∉ codes) :
    Firmware.setMode code (running blob codes mode) =
      ⟨.error ⟨"sink does not accept mode " ++ toString code.toNat⟩, running blob codes mode,
        []⟩ := by
  show (running blob codes mode).useMode code = _
  unfold useMode
  rw [if_pos (by simp [running, fresh, h])]

end Firmware.Simulator

/-! ## The controller -/

namespace Controller

open Firmware.Simulator (running)

/-- A change that moves no connector is seen through the handle. -/
theorem resolve_modify {c : Controller} {h : Handle} {x : Connector}
    {change : Connector → Connector} (hplace : ∀ x, place (change x) = place x)
    (hr : c.resolve h = .ok x) :
    (c.modify h change).resolve h = .ok (change x) := by
  obtain ⟨hact, hgen, hfind⟩ := resolve_eq_ok_iff.mp hr
  have hnamed : x.isNamedBy h = true := isNamedBy_iff.mpr (named_of_resolve hr)
  have hsame : ((fun y : Connector => y.isNamedBy h) ∘
      fun y => if y.isNamedBy h then change y else y) = fun y => y.isNamedBy h := by
    funext y
    have hkind : (change y).kind = y.kind := congrArg Prod.fst (hplace y)
    have hindex : (change y).index = y.index := congrArg Prod.snd (hplace y)
    have hmoved : (change y).isNamedBy h = y.isNamedBy h := by
      simp only [Connector.isNamedBy, hkind, hindex]
    by_cases hy : y.isNamedBy h = true
    · simp only [Function.comp, if_pos hy, hmoved]
    · simp only [Function.comp, if_neg hy]
  refine resolve_eq_ok_iff.mpr ⟨hact, hgen, ?_⟩
  show List.find? _ (c.connectors.map _) = _
  rw [List.find?_map, hsame, hfind, Option.map_some, if_pos hnamed]

/-- What the controller keeps during the command: what it was set up with, and that there is a
display at the HDMI connector of the handle. -/
structure Serves (c : Controller) (h : Handle) (catalog : Catalog)
    (policy : Edid.ChecksumPolicy) : Prop where
  catalog : c.catalog = catalog
  checksum : c.checksum = policy
  connector : ∃ x, c.resolve h = .ok x ∧ x.kind = .hdmi ∧ x.state = .connected

variable {c : Controller} {h : Handle} {catalog : Catalog} {policy : Edid.ChecksumPolicy}
  {blob : List UInt8} {codes : List Mode.ModeCode} {mode : Mode.ModeCode}

namespace Serves

/-- A change of one connector that leaves its place and its state alone keeps the controller
serving. -/
theorem modify (hs : c.Serves h catalog policy) (change : Connector → Connector)
    (hplace : ∀ x, place (change x) = place x) (hstate : ∀ x, (change x).state = x.state) :
    (c.modify h change).Serves h catalog policy := by
  obtain ⟨x, hr, hk, hconnected⟩ := hs.connector
  refine ⟨hs.catalog, hs.checksum, change x, resolve_modify hplace hr, ?_, ?_⟩
  · exact (congrArg Prod.fst (hplace x)).trans hk
  · exact (hstate x).trans hconnected

theorem remember (hs : c.Serves h catalog policy) (list : Option (List Mode.Resolution)) :
    (c.remember h list).Serves h catalog policy :=
  hs.modify (fun x => { x with accepted := list }) (fun _ => rfl) fun _ => rfl

/-- A handle that is served is accepted for everything that HDMI is able to do. -/
theorem exists_resolveHdmi (hs : c.Serves h catalog policy) (ability : Ability) :
    ∃ x, c.resolveHdmi h ability = .ok x ∧ x.state = .connected := by
  obtain ⟨x, hr, hk, hconnected⟩ := hs.connector
  exact ⟨x, resolveHdmi_eq_ok_iff.mpr ⟨hr, hk⟩, hconnected⟩

theorem isDisplayConnected (hs : c.Serves h catalog policy) :
    c.isDisplayConnected h = .ok true := by
  obtain ⟨x, hx, hconnected⟩ := hs.exists_resolveHdmi .detectDisplay
  unfold Controller.isDisplayConnected
  rw [hx]
  simp [Except.map, hconnected]

/-- A blob that does not decode is the error of the request. -/
theorem readIdentity_of_error (hs : c.Serves h catalog policy) {year : Nat} {cause : Edid.ReadError}
    (hdecode : Edid.decode policy year blob = .error cause) (codes : List Mode.ModeCode)
    (mode : Mode.ModeCode) :
    ∃ c' display' log, c.readIdentity (running blob codes mode) h year =
      ⟨.error (.unreadable cause), c', display', log⟩ := by
  obtain ⟨x, hx, -⟩ := hs.exists_resolveHdmi .readIdentity
  have hpolicy : (c.remember h none).checksum = policy := hs.checksum
  unfold Controller.readIdentity
  simp only [hx, Firmware.Simulator.readBlob_running, hpolicy, hdecode]
  exact ⟨_, _, _, rfl⟩

/-- A blob that decodes is the identity, with the resolutions that the display accepts. -/
theorem readIdentity_of_ok (hs : c.Serves h catalog policy) {year : Nat} {identity : Edid.Identity}
    (hdecode : Edid.decode policy year blob = .ok identity) (codes : List Mode.ModeCode)
    (mode : Mode.ModeCode) :
    ∃ c' log, c.readIdentity (running blob codes mode) h year =
        ⟨.ok { identity with resolutions := catalog.accepted codes }, c', running blob codes mode,
          log⟩ ∧
      c'.Serves h catalog policy := by
  obtain ⟨x, hx, -⟩ := hs.exists_resolveHdmi .readIdentity
  have hpolicy : (c.remember h none).checksum = policy := hs.checksum
  have hcatalog : (c.remember h none).catalog = catalog := hs.catalog
  unfold Controller.readIdentity askAccepted
  simp only [hx, Firmware.Simulator.readBlob_running, hpolicy, hdecode,
    Firmware.Simulator.modes_running, Except.map, hcatalog]
  exact ⟨_, _, rfl, (hs.remember none).remember _⟩

/-- A name is set if the display offers its mode. -/
theorem setResolution_of_mem (hs : c.Serves h catalog policy) {name : String}
    (hcode : catalog.codeOf name ∈ codes) (blob : List UInt8) (mode : Mode.ModeCode) :
    ∃ c' log, c.setResolution (running blob codes mode) h name =
        ⟨.ok (), c', running blob codes (catalog.codeOf name), log⟩ ∧
      c'.Serves h catalog policy := by
  obtain ⟨x, hx, -⟩ := hs.exists_resolveHdmi .changeResolution
  unfold Controller.setResolution
  simp only [hx, hs.catalog, Firmware.Simulator.setMode_running_of_mem hcode]
  exact ⟨_, _, rfl, hs.modify _ (fun _ => rfl) fun _ => rfl⟩

theorem setResolution_of_notMem (hs : c.Serves h catalog policy) {name : String}
    (hcode : catalog.codeOf name ∉ codes) (blob : List UInt8) (mode : Mode.ModeCode) :
    ∃ e c' display' log, c.setResolution (running blob codes mode) h name =
      ⟨.error e, c', display', log⟩ := by
  obtain ⟨x, hx, -⟩ := hs.exists_resolveHdmi .changeResolution
  unfold Controller.setResolution
  simp only [hx, hs.catalog, Firmware.Simulator.setMode_running_of_notMem hcode]
  exact ⟨_, _, _, _, rfl⟩

theorem resolution_of_some (hs : c.Serves h catalog policy) {r : Mode.Resolution}
    (hr : catalog.resolutionOf? mode = some r) (blob : List UInt8) (codes : List Mode.ModeCode) :
    ∃ log, c.resolution (running blob codes mode) h =
      ⟨.ok r, c, running blob codes mode, log⟩ := by
  obtain ⟨x, hx, -⟩ := hs.exists_resolveHdmi .tellResolution
  have hmode : (running blob codes mode).currentLink.mode = mode := rfl
  unfold Controller.resolution
  simp only [hx, hs.catalog, Firmware.Simulator.linkState_running, hmode, hr]
  exact ⟨_, rfl⟩

theorem resolution_of_none (hs : c.Serves h catalog policy)
    (hr : catalog.resolutionOf? mode = none) (blob : List UInt8) (codes : List Mode.ModeCode) :
    ∃ log, c.resolution (running blob codes mode) h =
      ⟨.error (.unmappedMode mode), c, running blob codes mode, log⟩ := by
  obtain ⟨x, hx, -⟩ := hs.exists_resolveHdmi .tellResolution
  have hmode : (running blob codes mode).currentLink.mode = mode := rfl
  unfold Controller.resolution
  simp only [hx, hs.catalog, Firmware.Simulator.linkState_running, hmode, hr]
  exact ⟨_, rfl⟩

/-- The aspect ratio of a mode in the table is that of its resolution. -/
theorem aspect (hs : c.Serves h catalog policy) {r : Mode.Resolution}
    (hr : Catalog.platform.resolutionOf? mode = some r) (blob : List UInt8)
    (codes : List Mode.ModeCode) :
    ∃ log, c.aspect (running blob codes mode) h =
      ⟨.ok r.aspect, c, running blob codes mode, log⟩ := by
  obtain ⟨x, hx, -⟩ := hs.exists_resolveHdmi .tellAspect
  have haspect : (running blob codes mode).currentLink.aspect = r.aspect := by
    show ((Catalog.platform.resolutionOf? mode).map Mode.Resolution.aspect).getD _ = r.aspect
    rw [hr]
    rfl
  unfold Controller.aspect
  simp only [hx, Firmware.Simulator.linkState_running, Except.map, haspect, Except.mapError]
  exact ⟨_, rfl⟩

theorem stop (hs : c.Serves h catalog policy) (display : Firmware.Simulator) :
    ∃ c' display' log, c.stop display = ⟨.ok (), c', display', log⟩ := by
  obtain ⟨x, hr, -⟩ := hs.connector
  unfold Controller.stop
  rw [isActive_of_resolve hr]
  exact ⟨_, _, _, rfl⟩

end Serves

/-- The display answers whether it is attached, if the controller has a reason to ask. -/
theorem askConnected_running (c : Controller) (blob : List UInt8) (codes : List Mode.ModeCode)
    (mode : Mode.ModeCode) :
    ∃ log, c.askConnected (running blob codes mode) =
      ⟨.ok c.hasHdmi, running blob codes mode, log⟩ := by
  unfold askConnected
  cases c.hasHdmi with
  | true => exact ⟨_, rfl⟩
  | false => exact ⟨_, rfl⟩

/-- The start succeeds, and every HDMI connector has a display then. -/
theorem start_initial (settings : Settings) (catalog : Catalog) (blob : List UInt8)
    (codes : List Mode.ModeCode) :
    ∃ c log, (initial 0 settings catalog).start (.fresh blob codes true) =
        ⟨.ok (), c, running blob codes (codes.headD 4), log⟩ ∧
      c.catalog = catalog ∧ c.checksum = settings.checksum ∧ c.isActive = true ∧
      c.connectors.map place = settings.places ∧
      ∀ x ∈ c.connectors, x.kind = .hdmi → x.state = .connected := by
  obtain ⟨log, hasked⟩ := askConnected_running (initial 0 settings catalog).emptyQueue blob codes
    (codes.headD 4)
  have hidle : (initial 0 settings catalog).isActive = false := rfl
  have hstart : Firmware.start (Firmware.Simulator.fresh blob codes true) =
      ⟨.ok (), { Firmware.Simulator.fresh blob codes true with isActive := true }, []⟩ := rfl
  have hattach : Firmware.attach (initial 0 settings catalog).emptyQueue.queueId
      { Firmware.Simulator.fresh blob codes true with isActive := true } =
        running blob codes (codes.headD 4) := rfl
  unfold start
  simp only [hidle, Bool.false_eq_true, if_false, hstart, hattach, hasked]
  refine ⟨_, _, rfl, rfl, rfl, rfl, ?_, ?_⟩
  · exact (places_reset _ _).trans (places_initial 0 settings catalog)
  · intro y hy hk
    obtain ⟨x, hx, rfl⟩ := List.mem_map.mp hy
    have hk' : x.kind = .hdmi := hk
    have hhdmi : (initial 0 settings catalog).emptyQueue.hasHdmi = true :=
      List.any_eq_true.mpr ⟨x, hx, beq_iff_eq.mpr hk'⟩
    show startState _ x = .connected
    unfold startState
    rw [hk', hhdmi]

end Controller

/-! ## The session -/

namespace Cli

open Firmware.Simulator (running)

/-- What is to be seen of a report. -/
structure Report.Ends (report : Report) (output : String) (failure : Option (List String)) :
    Prop where
  output : report.output = output
  failure : report.failure = failure

namespace Session

variable {α : Type} {session : Session} {next : Session → α → Report} {a : α}
  {request : Controller → Firmware.Simulator → Controller.Outcome Firmware.Simulator α}
  {question : Controller → Except Controller.Error α} {c' : Controller}
  {display' : Firmware.Simulator} {log : List Log.Entry} {output : String}
  {failure : Option (List String)} {e : Controller.Error}

/-- The session goes on with the answer. -/
theorem ends_andThen_of_ok
    (hok : request session.controller session.display = ⟨.ok a, c', display', log⟩)
    (hnext : (next ⟨c', display', session.output, session.log ++ log⟩ a).Ends output failure) :
    (session.andThen request next).Ends output failure := by
  unfold andThen
  rw [hok]
  exact hnext

/-- An error ends the session with what was printed before. -/
theorem ends_andThen_of_error
    (herror : request session.controller session.display = ⟨.error e, c', display', log⟩) :
    (session.andThen request next).Ends session.output (some e.messages) := by
  unfold andThen
  rw [herror]
  exact ⟨rfl, rfl⟩

/-- A question that succeeds prints nothing, and the report goes on. -/
theorem ends_ask_of_ok (hok : question session.controller = .ok a)
    (hnext : (next { session with log := session.log ++ [] } a).Ends output failure) :
    (session.ask question next).Ends output failure := by
  refine ends_andThen_of_ok ?_ hnext
  unfold Controller.reading
  rw [hok]

/-- A question that fails ends the report with its messages. -/
theorem ends_ask_of_error (herror : question session.controller = .error e) :
    (session.ask question next).Ends session.output (some e.messages) := by
  have hreading : session.controller.reading session.display (question session.controller) =
      ⟨.error e, session.controller, session.display, []⟩ := by
    unfold Controller.reading
    rw [herror]
  exact ends_andThen_of_error hreading

end Session

variable {c : Controller} {h : Handle} {catalog : Catalog} {policy : Edid.ChecksumPolicy}
  {blob : List UInt8} {codes : List Mode.ModeCode} {mode : Mode.ModeCode} {output : String}
  {log : List Log.Entry}

/-- The lines about the resolution in use. -/
def resolutionLines (r : Mode.Resolution) : List String :=
  ["resolution:       " ++ r.name, "aspect ratio:     " ++ r.aspect.label]

/-- The link tells the aspect ratio by the platform's own catalog, which knows the same resolution
for the mode as the one with another fallback. -/
theorem finish_of_some {fallback : String} (hcat : Catalog.withFallback fallback = .ok catalog)
    (hs : c.Serves h catalog policy) {r : Mode.Resolution}
    (hr : catalog.resolutionOf? mode = some r) :
    (Session.finish ⟨c, running blob codes mode, output, log⟩ h).Ends
      (output ++ lines (resolutionLines r)) none := by
  have hplatform : Catalog.platform.resolutionOf? mode = some r := by
    rw [← Catalog.resolutionOf?_of_withFallback hcat, hr]
  obtain ⟨log₁, hresolution⟩ := hs.resolution_of_some hr blob codes
  obtain ⟨log₂, haspect⟩ := hs.aspect hplatform blob codes
  obtain ⟨c', display', log₃, hstop⟩ := hs.stop (running blob codes mode)
  refine Session.ends_andThen_of_ok hresolution ?_
  refine Session.ends_andThen_of_ok haspect ?_
  refine Session.ends_andThen_of_ok hstop ⟨?_, rfl⟩
  show output ++ lines _ ++ lines _ = output ++ lines (resolutionLines r)
  rw [String.append_assoc, ← lines_append]
  rfl

/-- A mode in use without a resolution ends the report before its last lines. -/
theorem finish_of_none (hs : c.Serves h catalog policy) (hr : catalog.resolutionOf? mode = none) :
    (Session.finish ⟨c, running blob codes mode, output, log⟩ h).Ends output
      (some (Controller.Error.unmappedMode mode).messages) := by
  obtain ⟨log₁, hresolution⟩ := hs.resolution_of_none hr blob codes
  exact Session.ends_andThen_of_error hresolution

/-! ## The resolution at the end -/

/-- The request can be met: the display accepts the mode of the name, or, if no name is given, its
first mode has a resolution. -/
def CanShow (catalog : Catalog) (codes : List Mode.ModeCode) : Option String → Prop
  | some name => catalog.codeOf name ∈ codes
  | none => ∃ code ∈ codes.head?, ∃ r, catalog.resolutionOf? code = some r

/-- The resolution in use at the end: the one with the name, or with the fallback's name if the
table has none, or, if no name is given, the one of the first mode. -/
def IsShown (catalog : Catalog) (fallback : String) (codes : List Mode.ModeCode) :
    Option String → Mode.Resolution → Prop
  | some name, r => r ∈ catalog.resolutions ∧
      r.name = if name ∈ catalog.resolutions.map Mode.Resolution.name then name else fallback
  | none, r => ∃ code ∈ codes.head?, catalog.resolutionOf? code = some r

/-- A request that can be shown ends in the lines of a resolution. -/
theorem requestName_of_canShow {fallback : String}
    (hcat : Catalog.withFallback fallback = .ok catalog) (hs : c.Serves h catalog policy)
    (hmode : codes.head? = some mode) {request : Option String}
    (hshow : CanShow catalog codes request) (blob : List UInt8) (output : String)
    (log : List Log.Entry) :
    ∃ r, IsShown catalog fallback codes request r ∧
      (Session.requestName ⟨c, running blob codes mode, output, log⟩ h request fun session =>
        session.finish h).Ends (output ++ lines (resolutionLines r)) none := by
  cases request with
  | none =>
    obtain ⟨code, hcode, r, hr⟩ := hshow
    obtain rfl : mode = code := Option.some.inj (hmode.symm.trans hcode)
    exact ⟨r, ⟨mode, hmode, hr⟩, finish_of_some hcat hs hr⟩
  | some name =>
    -- the mode is set for the name as it is, and resolved to the resolution of its row
    obtain ⟨r, -, hname, -, hr⟩ := exists_resolveName hcat name
    obtain ⟨c', log₁, hset, hs'⟩ := hs.setResolution_of_mem hshow blob mode
    obtain ⟨log₂, hreport⟩ := requestName_goesOnWith hcat
      ⟨c, running blob codes mode, output, log⟩ hs.catalog h name fun session => session.finish h
    refine ⟨r, ⟨Catalog.mem_of_resolutionOf? hr, ?_⟩, ?_⟩
    · obtain ⟨-, hmodes, -⟩ := Catalog.withFallback_eq_ok_iff.mp hcat
      simp only [hname, Catalog.nameFor, Catalog.mem_names_iff hcat, hmodes]
    · rw [hreport]
      simp only [hset]
      exact finish_of_some hcat hs' hr

/-- A request that cannot ends in a failure behind what was printed. -/
theorem requestName_of_not_canShow {fallback : String}
    (hcat : Catalog.withFallback fallback = .ok catalog) (hs : c.Serves h catalog policy)
    (hmode : codes.head? = some mode) {request : Option String}
    (hshow : ¬ CanShow catalog codes request) (blob : List UInt8) (output : String)
    (log : List Log.Entry) :
    ∃ messages,
      (Session.requestName ⟨c, running blob codes mode, output, log⟩ h request fun session =>
        session.finish h).Ends output (some messages) := by
  cases request with
  | none =>
    have hr : catalog.resolutionOf? mode = none := by
      rw [Option.eq_none_iff_forall_ne_some]
      intro r hr
      exact hshow ⟨mode, hmode, r, hr⟩
    exact ⟨_, finish_of_none hs hr⟩
  | some name =>
    obtain ⟨e, c', display', log₁, hset⟩ := hs.setResolution_of_notMem hshow blob mode
    obtain ⟨log₂, hreport⟩ := requestName_goesOnWith hcat
      ⟨c, running blob codes mode, output, log⟩ hs.catalog h name fun session => session.finish h
    refine ⟨e.messages, ?_⟩
    rw [hreport]
    simp only [hset]
    exact ⟨rfl, rfl⟩

/-! ## The whole session -/

/-- The lines about the display. -/
def displayLines (catalog : Catalog) (codes : List Mode.ModeCode) (identity : Edid.Identity) :
    List String :=
  describe { identity with resolutions := catalog.accepted codes } ++ ["connected:        true"]

/-- The rows about the resolution in use. -/
def resolutionRows (r : Mode.Resolution) : List (String × String) :=
  [("resolution", r.name),
    ("aspect ratio", if r.aspect = .fourByThree then "Ratio4x3" else "Ratio16x9")]

/-- The lines of a resolution are labelled like those of a display. -/
theorem lines_resolutionLines (r : Mode.Resolution) :
    lines (resolutionLines r) = labelled (resolutionRows r) := by
  have hresolution : labelColumn "resolution" = "resolution:       " := by decide
  have haspect : labelColumn "aspect ratio" = "aspect ratio:     " := by decide
  have hlabel : r.aspect.label = if r.aspect = .fourByThree then "Ratio4x3" else "Ratio16x9" := by
    cases r.aspect <;> rfl
  rw [labelled_eq_lines, resolutionLines, hlabel]
  simp only [resolutionRows, List.map_cons, List.map_nil, hresolution, haspect]

/-- The lines about the display are its description and the row about the connection. -/
theorem isDescription_displayLines (catalog : Catalog) (codes : List Mode.ModeCode)
    (identity : Edid.Identity) :
    ∃ rows, IsDescription identity ((catalog.accepted codes).map Mode.Resolution.name) rows ∧
      lines (displayLines catalog codes identity) = labelled (rows ++ [("connected", "true")]) := by
  obtain ⟨rows, hrows, hprinted⟩ :=
    isDescription_describe { identity with resolutions := catalog.accepted codes }
  have hconnected : lines ["connected:        true"] = labelled [("connected", "true")] := by
    decide
  refine ⟨rows, ?_, ?_⟩
  · cases hrows with
    | rows hdate haddress => exact .rows hdate haddress
  · rw [displayLines, lines_append, hprinted, hconnected, labelled_append]

section Run

variable {settings : Settings} {year : Nat} {request : Option String} {identity : Edid.Identity}

/-- The session of a controller that was never started, over a display that was never used. -/
def freshSession (settings : Settings) (catalog : Catalog) (blob : List UInt8)
    (codes : List Mode.ModeCode) : Session :=
  ⟨Controller.initial 0 settings catalog, .fresh blob codes true, "", []⟩

/-- Without an HDMI connector the start succeeds nevertheless, and the handle is refused. -/
theorem run_without_hdmi (hcount : settings.hdmiCount = 0) :
    ((freshSession settings catalog blob codes).run year request).Ends ""
      (some Controller.Error.noConnector.messages) := by
  obtain ⟨c, log, hstart, -, -, hact, hplaces, -⟩ :=
    Controller.start_initial settings catalog blob codes
  have hmissing : (Connector.Kind.hdmi, (0 : UInt8)) ∉ c.connectors.map Controller.place := by
    rw [hplaces, Settings.mem_places, Settings.count, hcount]
    decide
  have hhandle : c.handle .hdmi 0 = .error .noConnector := by
    unfold Controller.handle
    dsimp only
    rw [Controller.resolve_of_missing hact rfl hmissing]
    rfl
  refine Session.ends_andThen_of_ok hstart ?_
  exact Session.ends_ask_of_error hhandle

/-- With an HDMI connector the session gets as far as the identification data. -/
theorem exists_serves (hcount : 0 < settings.hdmiCount) (catalog : Catalog) (blob : List UInt8)
    (codes : List Mode.ModeCode) :
    ∃ c log h, (Controller.initial 0 settings catalog).start (.fresh blob codes true) =
        ⟨.ok (), c, running blob codes (codes.headD 4), log⟩ ∧
      c.handle .hdmi 0 = .ok h ∧ c.Serves h catalog settings.checksum := by
  obtain ⟨c, log, hstart, hcatalog, hchecksum, hact, hplaces, hconnected⟩ :=
    Controller.start_initial settings catalog blob codes
  obtain ⟨h, x, hhandle, hr, hk, -⟩ := Controller.exists_handle_zero hplaces hcount hact
  exact ⟨c, log, h, hstart, hhandle, hcatalog, hchecksum, x, hr, hk,
    hconnected x (Controller.mem_of_resolve hr) hk⟩

/-- A blob that does not decode ends the command before it prints anything. -/
theorem run_unreadable (hcount : 0 < settings.hdmiCount) {cause : Edid.ReadError}
    (hdecode : Edid.decode settings.checksum year blob = .error cause) :
    ((freshSession settings catalog blob codes).run year request).Ends ""
      (some (Controller.Error.unreadable cause).messages) := by
  obtain ⟨c, log, h, hstart, hhandle, hs⟩ := exists_serves hcount catalog blob codes
  obtain ⟨c', display', log₁, hread⟩ := hs.readIdentity_of_error hdecode codes (codes.headD 4)
  refine Session.ends_andThen_of_ok hstart ?_
  refine Session.ends_ask_of_ok hhandle ?_
  exact Session.ends_andThen_of_error hread

/-- Once the data are read, the display is described and then the request is made. -/
theorem exists_run_ends (hcount : 0 < settings.hdmiCount)
    (hdecode : Edid.decode settings.checksum year blob = .ok identity) (catalog : Catalog)
    (codes : List Mode.ModeCode) (request : Option String) :
    ∃ c h log, c.Serves h catalog settings.checksum ∧ ∀ {output failure},
      (Session.requestName ⟨c, running blob codes (codes.headD 4),
        lines (displayLines catalog codes identity), log⟩ h request fun session =>
          session.finish h).Ends output failure →
      ((freshSession settings catalog blob codes).run year request).Ends output failure := by
  obtain ⟨c, log, h, hstart, hhandle, hs⟩ := exists_serves hcount catalog blob codes
  obtain ⟨c', log₁, hread, hs'⟩ := hs.readIdentity_of_ok hdecode codes (codes.headD 4)
  have hprinted : "" ++ lines (describe { identity with resolutions := catalog.accepted codes }) ++
      lines ["connected:        " ++ toString true] =
        lines (displayLines catalog codes identity) := by
    rw [String.empty_append, ← lines_append]
    rfl
  refine ⟨c', h, [] ++ log ++ [] ++ log₁ ++ [], hs', fun hnext => ?_⟩
  rw [← hprinted] at hnext
  refine Session.ends_andThen_of_ok hstart ?_
  refine Session.ends_ask_of_ok hhandle ?_
  refine Session.ends_andThen_of_ok hread ?_
  exact Session.ends_ask_of_ok hs'.isDisplayConnected hnext

end Run

/-! ## The report -/

/-- The codes that the display accepts: those given, or all of the platform if none are given. -/
def codesOf : List Mode.ModeCode → List Mode.ModeCode
  | [] => Catalog.platformModes.map Mode.ModeRow.code
  | codes => codes

/-- There is always a first mode, which the display uses at the begin: no modes given means all of
the platform. -/
theorem exists_head?_codesOf (supported : List Mode.ModeCode) :
    ∃ mode, (codesOf supported).head? = some mode := by
  cases supported with
  | nil => exact ⟨_, rfl⟩
  | cons code codes => exact ⟨_, rfl⟩

/-- The report of the command is as it should be. -/
structure IsDisplayReport (settings : Settings) (catalog : Catalog) (year : Nat)
    (blob : List UInt8) (codes : List Mode.ModeCode) (request : Option String)
    (report : Report) : Prop where
  /-- The command succeeds if there is an HDMI connector, the identification data can be read, and
  the request can be met. -/
  succeeds : report.failure = none ↔ 0 < settings.hdmiCount ∧
    (∃ identity, Edid.decode settings.checksum year blob = .ok identity) ∧
      CanShow catalog codes request
  /-- Then everything is printed: the display with the names of what it accepts, that it is
  connected, and the resolution in use. -/
  printed : report.failure = none →
    ∃ identity r rows, Edid.decode settings.checksum year blob = .ok identity ∧
      IsShown catalog settings.fallback codes request r ∧
      IsDescription identity ((catalog.accepted codes).map Mode.Resolution.name) rows ∧
      report.output = labelled (rows ++ [("connected", "true")] ++ resolutionRows r)
  /-- What it accepts are the resolutions of the table whose mode is among its modes, in the order
  of the table. -/
  accepts : (catalog.accepted codes).Sublist catalog.resolutions ∧
    ∀ r, r ∈ catalog.accepted codes ↔ r ∈ catalog.resolutions ∧ catalog.codeOf r.name ∈ codes
  /-- If it fails with the data read, the rows about the display are printed, -/
  late : report.failure ≠ none → 0 < settings.hdmiCount → ∀ identity,
    Edid.decode settings.checksum year blob = .ok identity →
      ∃ rows,
        IsDescription identity ((catalog.accepted codes).map Mode.Resolution.name) rows ∧
        report.output = labelled (rows ++ [("connected", "true")])
  /-- and if it fails before that, nothing is. -/
  early : report.failure ≠ none → ¬ (0 < settings.hdmiCount ∧
    ∃ identity, Edid.decode settings.checksum year blob = .ok identity) → report.output = ""

/-- Under the platform's tables every resolution has a mode, so the display accepts a resolution
exactly if it accepts its mode. -/
theorem mem_accepted_iff_of_withFallback {fallback : String}
    (hcat : Catalog.withFallback fallback = .ok catalog) (codes : List Mode.ModeCode)
    (r : Mode.Resolution) :
    r ∈ catalog.accepted codes ↔ r ∈ catalog.resolutions ∧ catalog.codeOf r.name ∈ codes := by
  obtain ⟨hresolutions, hmodes, hconsistent, -⟩ := Catalog.withFallback_eq_ok_iff.mp hcat
  rw [Catalog.mem_accepted_iff hconsistent]
  refine and_congr_right fun hr => ?_
  obtain ⟨code, hrow⟩ := Catalog.exists_row_of_mem_advertised (hresolutions ▸ hr)
  rw [← hmodes] at hrow
  have hcode : catalog.codeOf r.name = code := Catalog.codeOf_of_mem hconsistent hrow
  constructor
  · rintro ⟨code', hlisted, hrow'⟩
    rwa [show catalog.codeOf r.name = code' from Catalog.codeOf_of_mem hconsistent hrow']
  · intro hlisted
    exact ⟨code, hcode ▸ hlisted, hrow⟩

section Report

variable {settings : Settings} {year : Nat} {request : Option String} {report : Report}

/-- A failure that shows what it should. -/
theorem isDisplayReport_of_failed (hcat : Catalog.withFallback settings.fallback = .ok catalog)
    {messages : List String} (hend : report.Ends output (some messages))
    (hnot : 0 < settings.hdmiCount →
      ∀ identity, Edid.decode settings.checksum year blob = .ok identity →
        ¬ CanShow catalog codes request ∧ output = lines (displayLines catalog codes identity))
    (hearly : ¬ (0 < settings.hdmiCount ∧
      ∃ identity, Edid.decode settings.checksum year blob = .ok identity) → output = "") :
    IsDisplayReport settings catalog year blob codes request report := by
  have hfailed : report.failure ≠ none := by
    rw [hend.failure]
    exact Option.some_ne_none messages
  refine ⟨⟨fun h => absurd h hfailed, ?_⟩, fun h => absurd h hfailed,
    ⟨Catalog.accepted_sublist catalog codes, mem_accepted_iff_of_withFallback hcat codes⟩, ?_, ?_⟩
  · rintro ⟨hcount, ⟨identity, hdecode⟩, hshow⟩
    exact absurd hshow (hnot hcount identity hdecode).1
  · intro _ hcount identity hdecode
    rw [hend.output, (hnot hcount identity hdecode).2]
    exact isDescription_displayLines catalog codes identity
  · intro _ hunread
    rw [hend.output]
    exact hearly hunread

/-- A session over the simulated display ends in the report that its blob, its modes and the request
call for. -/
theorem isDisplayReport_run (hcat : Catalog.withFallback settings.fallback = .ok catalog)
    (hmode : codes.head? = some mode) (blob : List UInt8) (year : Nat) (request : Option String) :
    IsDisplayReport settings catalog year blob codes request
      ((freshSession settings catalog blob codes).run year request) := by
  have hhead : codes.headD 4 = mode := by
    rw [List.headD_eq_head?_getD, hmode]
    rfl
  -- the command can fail for want of a connector, at the blob, or at the request, in this order
  by_cases hcount : 0 < settings.hdmiCount
  · cases hdecode : Edid.decode settings.checksum year blob with
    | error cause =>
      refine isDisplayReport_of_failed hcat (run_unreadable hcount hdecode) ?_ fun _ => rfl
      intro _ identity hok
      exact absurd (hdecode.symm.trans hok) (by simp)
    | ok identity =>
      obtain ⟨c, h, log, hs, hends⟩ := exists_run_ends hcount hdecode catalog codes request
      have honly : ∀ identity', Edid.decode settings.checksum year blob = .ok identity' →
          identity' = identity := fun _ hok => Except.ok.inj (hok.symm.trans hdecode)
      rw [hhead] at hends
      -- the lines about the display are printed in either case
      by_cases hshow : CanShow catalog codes request
      · obtain ⟨r, hr, hend⟩ := requestName_of_canShow hcat hs hmode hshow blob
          (lines (displayLines catalog codes identity)) log
        have hrun := hends hend
        obtain ⟨rows, hrows, hprinted⟩ := isDescription_displayLines catalog codes identity
        rw [hprinted, lines_resolutionLines, ← labelled_append] at hrun
        refine ⟨⟨fun _ => ⟨hcount, ⟨identity, hdecode⟩, hshow⟩, fun _ => hrun.failure⟩,
          fun _ => ⟨identity, r, rows, hdecode, hr, hrows, hrun.output⟩,
          ⟨Catalog.accepted_sublist catalog codes, mem_accepted_iff_of_withFallback hcat codes⟩,
          ?_, ?_⟩
        · exact fun hfailed => absurd hrun.failure hfailed
        · exact fun hfailed => absurd hrun.failure hfailed
      · obtain ⟨messages, hend⟩ := requestName_of_not_canShow hcat hs hmode hshow blob
          (lines (displayLines catalog codes identity)) log
        refine isDisplayReport_of_failed hcat (hends hend) ?_ ?_
        · intro _ identity' hok
          rw [honly identity' hok]
          exact ⟨hshow, rfl⟩
        · exact fun hunread => absurd ⟨hcount, identity, hdecode⟩ hunread
  · have hzero : settings.hdmiCount = 0 := UInt8.le_zero_iff.mp (UInt8.not_lt.mp hcount)
    exact isDisplayReport_of_failed hcat (run_without_hdmi hzero) (fun h => absurd h hcount)
      fun _ => rfl

/-- **What the display command does.** Under settings that pass the check, and with a file that can
be read, it succeeds if there is an HDMI connector, the identification data are readable and the
display accepts the mode of the name, or, if no name is given, its first mode has a resolution.
Then the display and its resolution are printed; a failure prints the lines about the display if it
came behind them, and nothing otherwise. -/
theorem isDisplayReport_of_check (hvalid : settings.check = .ok settings) {host : Host}
    {file : String} {blob : List UInt8} (hfile : host.read file = .ok blob) :
    ∃ catalog, settings.catalog = .ok catalog ∧ ∀ supported request,
      IsDisplayReport settings catalog host.currentYear blob (codesOf supported) request
        ((Command.display file supported request).run host settings) := by
  obtain ⟨catalog, hcat, hmade⟩ := Controller.ofSettings_of_check hvalid 0
  refine ⟨catalog, ?_, fun supported request => ?_⟩
  · unfold Settings.catalog
    rw [hcat]
  · have hblob : host.readBlob file = .ok blob := by
      unfold Host.readBlob
      rw [hfile]
    have hrun : (Command.display file supported request).run host settings =
        (freshSession settings catalog blob (codesOf supported)).run host.currentYear request := by
      show runDisplay host settings file supported request = _
      unfold runDisplay
      rw [hblob, hmade]
      rfl
    obtain ⟨mode, hmode⟩ := exists_head?_codesOf supported
    rw [hrun]
    exact isDisplayReport_run hcat hmode blob host.currentYear request

set_option maxRecDepth 4000 in
/-- A display that accepts two modes: the fallback of an unknown name is one of them, and another
name has a mode that is not. -/
theorem isDisplayReport_of_two_modes :
    ∃ (host : Host) (blob : List UInt8) (catalog : Catalog),
      Settings.check {} = .ok {} ∧ host.read "tv.bin" = .ok blob ∧
      Settings.catalog {} = .ok catalog ∧
      (∀ request, IsDisplayReport {} catalog 2026 blob [4, 16] request
        ((Command.display "tv.bin" [4, 16] request).run host {})) ∧
      ((Command.display "tv.bin" [4, 16] (some "8k")).run host {}).failure = none ∧
      ((Command.display "tv.bin" [4, 16] (some "1080p50")).run host {}).failure ≠ none := by
  obtain ⟨blob, hblob⟩ : ∃ blob, blob = (Edid.Draft.ofSteps [.monitorName "Den"]).blob := ⟨_, rfl⟩
  obtain ⟨host, hhost⟩ : ∃ host : Host, host = ⟨fun _ => none, fun _ => .ok blob, 2026⟩ := ⟨_, rfl⟩
  have hfile : host.read "tv.bin" = .ok blob := by rw [hhost]
  have hread : (Edid.decode .strict 2026 blob).toOption.isSome = true := by
    subst hblob
    cbv
  obtain ⟨identity, hdecode⟩ := Edid.exists_of_isSome hread
  have hcheck : Settings.check {} = .ok {} := rfl
  obtain ⟨catalog, hcatalog, hreport⟩ := isDisplayReport_of_check hcheck hfile
  have hyear : host.currentYear = 2026 := by rw [hhost]
  rw [hyear] at hreport
  have hplatform : Settings.catalog {} = .ok Catalog.platform := rfl
  obtain rfl := Except.ok.inj (hplatform.symm.trans hcatalog)
  refine ⟨host, blob, Catalog.platform, hcheck, hfile, hcatalog, hreport [4, 16], ?_, fun hok => ?_⟩
  · have hshow : CanShow Catalog.platform [4, 16] (some "8k") := List.mem_cons_self
    exact (hreport [4, 16] (some "8k")).succeeds.mpr ⟨by decide, ⟨identity, hdecode⟩, hshow⟩
  · have hshow : ¬ CanShow Catalog.platform [4, 16] (some "1080p50") :=
      fun h => absurd (show (31 : Mode.ModeCode) ∈ [4, 16] from h) (by decide)
    exact hshow ((hreport [4, 16] (some "1080p50")).succeeds.mp hok).2.2

end Report

end Cli

end VideoOutput

import VideoOutput.Controller.Basic

/-!
# Requests on a connector

What can be asked of a connector and told to it. Each request judges the handle before anything
else, then calls the firmware, and changes the connector only after the calls it depends on have
succeeded. The one exception is `readIdentity`, which forgets the accepted resolutions at once,
because reading the identification data is how they are refreshed.

Three questions are answered for connectors of both kinds and without a call: the state, whether the
output is on, and which resolution was requested last. All others but switching need HDMI. What the
firmware is asked every time is the resolution, the aspect ratio, the geometries and the blob; what
the display accepts is asked once and remembered until the connector forgets it.

A resolution is set by name, and any name will do: the catalog has a code for it. What is stored as
requested is not the name but the resolution that the catalog makes of the code, so for an unknown
name it is the fallback. Content protection can be told and not switched, on any connector.
-/

namespace VideoOutput.Controller

variable {σ : Type} [Firmware σ]

/-- The state of a connector. -/
def state (c : Controller) (h : Handle) : Except Error Connector.State :=
  (c.resolve h).map Connector.state

/-- The output of a connector is on. -/
def isEnabled (c : Controller) (h : Handle) : Except Error Bool :=
  (c.resolve h).map Connector.enabled

/-- The resolution requested last. -/
def requested (c : Controller) (h : Handle) : Except Error (Option Mode.Resolution) :=
  (c.resolve h).map Connector.requested

/-- A display is attached to the connector. -/
def isDisplayConnected (c : Controller) (h : Handle) : Except Error Bool :=
  (c.resolveHdmi h .detectDisplay).map fun connector => connector.state == .connected

/-- The state of content protection. -/
def hdcp (c : Controller) (h : Handle) : Except Error Connector.Hdcp :=
  (c.resolveHdmi h .tellProtection).map Connector.hdcp

/-- Content protection cannot be switched from here. -/
def controlHdcp (c : Controller) (h : Handle) : Except Error Unit :=
  match c.resolve h with
  | .error e => .error e
  | .ok _ => .error (.unsupported .controlProtection)

/-- Switch the output of a connector on or off. -/
def setEnabled (c : Controller) (fw : σ) (h : Handle) (enabled : Bool) : Outcome σ Unit :=
  match c.resolve h with
  | .error e => c.reading fw (.error e)
  | .ok _ =>
    let reply := Firmware.setEnabled h.kind enabled fw
    match reply.answer with
    | .error failure => ⟨.error (.firmware failure), c, reply.state, reply.log⟩
    | .ok () =>
      ⟨.ok (), c.modify h fun connector => { connector with enabled }, reply.state, reply.log⟩

/-- The resolution in use, as the firmware reports it. -/
def resolution (c : Controller) (fw : σ) (h : Handle) : Outcome σ Mode.Resolution :=
  match c.resolveHdmi h .tellResolution with
  | .error e => c.reading fw (.error e)
  | .ok _ =>
    let reply := Firmware.linkState fw
    match reply.answer with
    | .error failure => ⟨.error (.firmware failure), c, reply.state, reply.log⟩
    | .ok link =>
      let log := reply.log ++ c.catalog.resolutionOfLog link.mode
      match c.catalog.resolutionOf? link.mode with
      | some r => ⟨.ok r, c, reply.state, log⟩
      | none => ⟨.error (.unmappedMode link.mode), c, reply.state, log⟩

/-- Request a resolution by name. For an unknown name the fallback is requested. -/
def setResolution (c : Controller) (fw : σ) (h : Handle) (name : String) : Outcome σ Unit :=
  match c.resolveHdmi h .changeResolution with
  | .error e => c.reading fw (.error e)
  | .ok _ =>
    let code := c.catalog.codeOf name
    let reply := Firmware.setMode code fw
    let log := c.catalog.codeOfLog name ++ reply.log
    match reply.answer with
    | .error failure => ⟨.error (.firmware failure), c, reply.state, log⟩
    | .ok () =>
      ⟨.ok (),
        c.modify h fun connector => { connector with requested := c.catalog.resolutionOf? code },
        reply.state,
        log ++ c.catalog.resolutionOfLog code ++
          [⟨.debug, "resolution set",
            [("port", .text h.text), ("name", .text name),
              ("mode", .text (toString code.toNat))]⟩]⟩

/-- The identification data of the attached display. -/
def blob (c : Controller) (fw : σ) (h : Handle) : Outcome σ (List UInt8) :=
  match c.resolveHdmi h .readIdentity with
  | .error e => c.reading fw (.error e)
  | .ok _ =>
    let reply := Firmware.readBlob fw
    ⟨reply.answer.mapError Error.firmware, c, reply.state, reply.log⟩

/-- Ask the firmware which resolutions the attached display accepts. -/
def askAccepted (c : Controller) (fw : σ) : Firmware.Reply σ (List Mode.Resolution) :=
  let reply := Firmware.modes fw
  ⟨reply.answer.map c.catalog.accepted, reply.state, reply.log⟩

/-- Remember, or forget, what the display at a connector accepts. -/
def remember (c : Controller) (h : Handle) (accepted : Option (List Mode.Resolution)) :
    Controller :=
  c.modify h fun connector => { connector with accepted }

/-- Read who the attached display is, and ask anew what it accepts. -/
def readIdentity (c : Controller) (fw : σ) (h : Handle) (currentYear : Nat) :
    Outcome σ Edid.Identity :=
  match c.resolveHdmi h .readIdentity with
  | .error e => c.reading fw (.error e)
  | .ok _ =>
    let c := c.remember h none
    let read := Firmware.readBlob fw
    match read.answer with
    | .error failure => ⟨.error (.firmware failure), c, read.state, read.log⟩
    | .ok bytes =>
      let log := read.log ++ Edid.decodeLog c.checksum bytes
      match Edid.decode c.checksum currentYear bytes with
      | .error cause => ⟨.error (.unreadable cause), c, read.state, log⟩
      | .ok identity =>
        let asked := c.askAccepted read.state
        match asked.answer with
        | .error failure => ⟨.error (.firmware failure), c, asked.state, log ++ asked.log⟩
        | .ok resolutions =>
          ⟨.ok { identity with resolutions }, c.remember h (some resolutions), asked.state,
            log ++ asked.log⟩

/-- The resolutions that the attached display accepts, in advertising order. The firmware is asked
only if they are not known yet. -/
def accepted (c : Controller) (fw : σ) (h : Handle) : Outcome σ (List Mode.Resolution) :=
  match c.resolveHdmi h .listResolutions with
  | .error e => c.reading fw (.error e)
  | .ok connector =>
    match connector.accepted with
    | some known => c.reading fw (.ok known)
    | none =>
      let asked := c.askAccepted fw
      match asked.answer with
      | .error failure => ⟨.error (.firmware failure), c, asked.state, asked.log⟩
      | .ok resolutions =>
        ⟨.ok resolutions, c.remember h (some resolutions), asked.state, asked.log⟩

/-- The geometries of mode codes, each once, in order of first occurrence. -/
def geometriesOf (codes : List Mode.ModeCode) : List Mode.Geometry :=
  (codes.filterMap Mode.Catalog.geometryOf?).eraseDups

/-- The geometries that the attached display accepts. Codes without one are passed over. -/
def geometries (c : Controller) (fw : σ) (h : Handle) : Outcome σ (List Mode.Geometry) :=
  match c.resolveHdmi h .listResolutions with
  | .error e => c.reading fw (.error e)
  | .ok _ =>
    let reply := Firmware.modes fw
    ⟨(reply.answer.map geometriesOf).mapError Error.firmware, c, reply.state, reply.log⟩

/-- The aspect ratio in use, as the firmware reports it. -/
def aspect (c : Controller) (fw : σ) (h : Handle) : Outcome σ Mode.Aspect :=
  match c.resolveHdmi h .tellAspect with
  | .error e => c.reading fw (.error e)
  | .ok _ =>
    let reply := Firmware.linkState fw
    ⟨(reply.answer.map Firmware.LinkState.aspect).mapError Error.firmware, c, reply.state,
      reply.log⟩

end VideoOutput.Controller

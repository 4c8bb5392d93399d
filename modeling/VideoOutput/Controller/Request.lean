import VideoOutput.Controller.Dispatch
import VideoOutput.Controller.Lifecycle
import VideoOutput.Controller.Operations

/-!
# Requests

Everything that can be asked of a controller, as data. `perform` carries out one request over any
firmware; a history of requests is a list of them.

Requests on a connector carry its handle, the others are about the controller as a whole: to start
and to stop it, to register a callback, to dispatch what waits. The answers are data of one type, so
that a run can be judged by the answers that it gave without looking into the controller. As
requests are data too, a property of every request is shown by cases, and a property of every
history by induction on the list.
-/

namespace VideoOutput.Controller

/-- A request on a connector. -/
inductive HandleRequest where
  | state
  | setEnabled (enabled : Bool)
  | isEnabled
  | isDisplayConnected
  | resolution
  | setResolution (name : String)
  | requested
  | readIdentity (currentYear : Nat)
  | blob
  | accepted
  | geometries
  | aspect
  | hdcp
  | controlHdcp (enabled : Bool)
  deriving DecidableEq

/-- A request on the controller. -/
inductive Request where
  | start
  | stop
  | handle (kind : Connector.Kind) (index : UInt8)
  | on (h : Handle) (request : HandleRequest)
  | register (eventClass : Connector.EventClass) (id : CallbackId)
  | dispatch
  deriving DecidableEq

/-- What a request is answered with. -/
inductive Answer where
  | done
  | handle (h : Handle)
  | state (state : Connector.State)
  | flag (value : Bool)
  | resolution (r : Mode.Resolution)
  | requested (r : Option Mode.Resolution)
  | identity (identity : Edid.Identity)
  | blob (bytes : List UInt8)
  | resolutions (list : List Mode.Resolution)
  | geometries (list : List Mode.Geometry)
  | aspect (aspect : Mode.Aspect)
  | hdcp (status : Connector.Hdcp)
  | dispatched (dispatched : Dispatched)
  deriving DecidableEq

/-- An outcome with its result wrapped up as an answer. -/
def Outcome.answering {σ α : Type} (outcome : Outcome σ α) (wrap : α → Answer) : Outcome σ Answer :=
  ⟨outcome.result.map wrap, outcome.controller, outcome.firmware, outcome.log⟩

variable {σ : Type} [Firmware σ]

/-- Carry out a request on a connector. -/
def performOn (c : Controller) (fw : σ) (h : Handle) : HandleRequest → Outcome σ Answer
  | .state => c.reading fw ((c.state h).map .state)
  | .setEnabled enabled => (c.setEnabled fw h enabled).answering fun _ => .done
  | .isEnabled => c.reading fw ((c.isEnabled h).map .flag)
  | .isDisplayConnected => c.reading fw ((c.isDisplayConnected h).map .flag)
  | .resolution => (c.resolution fw h).answering .resolution
  | .setResolution name => (c.setResolution fw h name).answering fun _ => .done
  | .requested => c.reading fw ((c.requested h).map .requested)
  | .readIdentity currentYear => (c.readIdentity fw h currentYear).answering .identity
  | .blob => (c.blob fw h).answering .blob
  | .accepted => (c.accepted fw h).answering .resolutions
  | .geometries => (c.geometries fw h).answering .geometries
  | .aspect => (c.aspect fw h).answering .aspect
  | .hdcp => c.reading fw ((c.hdcp h).map .hdcp)
  | .controlHdcp _ => c.reading fw ((c.controlHdcp h).map fun _ => .done)

/-- Carry out a request. -/
def perform (c : Controller) (fw : σ) : Request → Outcome σ Answer
  | .start => (c.start fw).answering fun _ => .done
  | .stop => (c.stop fw).answering fun _ => .done
  | .handle kind index => c.reading fw ((c.handle kind index).map .handle)
  | .on h request => c.performOn fw h request
  | .register eventClass id => (c.register fw eventClass id).answering fun _ => .done
  | .dispatch => ⟨.ok (.dispatched c.dispatch.2), c.dispatch.1, fw, c.dispatchLog⟩

end VideoOutput.Controller

import VideoOutput.Connector.Event
import VideoOutput.Mode.Resolution

/-!
# Connectors and handles

A connector is one place where a display can be attached. A handle names a connector for one cycle
of the controller: it carries the generation of that cycle, so a handle from an earlier cycle is
recognised as stale.

What is known about a connector is a flat record, and only three things ever write it: a request on
its handle, an event about it, and the start or the end of a cycle. The last two are here. `reset`
keeps the place and forgets everything else; `apply` changes what an event tells of. A display that
comes or goes makes the accepted resolutions unknown, because another display may accept others, and
the requested resolution is kept, because nobody has taken it back. Sensing changes nothing that is
kept.

Kind and index together are the place of a connector and never change. That no two connectors of a
controller stand in one place is a matter of how a controller is made, and is shown where it is
needed.
-/

namespace VideoOutput

namespace Connector

/-- The kind of a connector. -/
inductive Kind where
  | hdmi
  | composite
  deriving DecidableEq

/-- The kind as it is written in answers. -/
def Kind.text : Kind → String
  | .hdmi => "hdmi"
  | .composite => "composite"

/-- How far a connector has come. -/
inductive State where
  /-- The controller is not active. -/
  | uninitialized
  /-- No display is known to be attached. -/
  | ready
  /-- A display is attached. -/
  | connected
  deriving DecidableEq

/-- The state as it is written in answers. -/
def State.text : State → String
  | .uninitialized => "uninitialized"
  | .ready => "ready"
  | .connected => "connected"

end Connector

/-- A connector with what is known about it. -/
structure Connector where
  kind : Connector.Kind
  index : UInt8
  state : Connector.State := .uninitialized
  enabled : Bool := false
  hdcp : Connector.Hdcp := .unpowered
  /-- The resolution requested last. -/
  requested : Option Mode.Resolution := none
  /-- What the attached display accepts, as long as that is known. -/
  accepted : Option (List Mode.Resolution) := none
  deriving DecidableEq

/-- The name of a connector for one cycle of the controller. -/
structure Handle where
  kind : Connector.Kind
  index : UInt8
  generation : UInt32
  deriving DecidableEq

/-- The written form of a handle. It does not tell the generation. -/
def Handle.text (handle : Handle) : String :=
  handle.kind.text ++ toString handle.index.toNat

namespace Connector

/-- The handle names the connector, whatever its generation. -/
def isNamedBy (connector : Connector) (handle : Handle) : Bool :=
  connector.kind == handle.kind && connector.index == handle.index

/-- A connector of which nothing is known but the state. It is enabled unless uninitialized. -/
def reset (connector : Connector) (state : State) : Connector :=
  { kind := connector.kind
    index := connector.index
    state
    enabled := state != .uninitialized }

/-- The connector after an event. A display that comes or goes makes the accepted resolutions
unknown, and one that goes takes content protection with it. -/
def apply (connector : Connector) : Event → Connector
  | .connected => { connector with state := .connected, accepted := none }
  | .disconnected =>
    { connector with state := .ready, accepted := none, hdcp := .unpowered }
  | .sensed _ => connector
  | .hdcp status => { connector with hdcp := status }

end Connector

end VideoOutput

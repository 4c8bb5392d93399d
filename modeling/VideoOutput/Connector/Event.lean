/-!
# Events

What the display firmware announces about an HDMI connector: a display came or went, its receiver
was sensed, or the state of content protection changed.

An event belongs to one of two classes, for each of which one callback can be registered: content
protection, and everything else. A notice is an event with the index of the HDMI connector that it
is about. It carries no kind, as nothing is ever announced about a composite connector, and no
generation, because it does not outlive one: a start empties the queue. The index may be one that no
connector has, and then the notice is discarded when it is dispatched.

The same data have a written form in answers and another in log entries.
-/

namespace VideoOutput.Connector

/-- The state of content protection on a link. -/
inductive Hdcp where
  | unpowered
  | unauthenticated
  | inProgress
  | authenticated
  | authenticationFailure
  | disabled
  deriving DecidableEq

/-- The state as it is written in answers. -/
def Hdcp.text : Hdcp → String
  | .unpowered => "unpowered"
  | .unauthenticated => "unauthenticated"
  | .inProgress => "in_progress"
  | .authenticated => "authenticated"
  | .authenticationFailure => "authentication_failure"
  | .disabled => "port_disabled"

/-- The state as it is written in log entries. -/
def Hdcp.label : Hdcp → String
  | .unpowered => "Unpowered"
  | .unauthenticated => "Unauthenticated"
  | .inProgress => "InProgress"
  | .authenticated => "Authenticated"
  | .authenticationFailure => "AuthenticationFailure"
  | .disabled => "PortDisabled"

/-- Every state of content protection. -/
def Hdcp.all : List Hdcp :=
  [.unpowered, .unauthenticated, .inProgress, .authenticated, .authenticationFailure, .disabled]

/-- What happened on a link. -/
inductive Event where
  | connected
  | disconnected
  /-- The receiver's termination appeared or vanished. -/
  | sensed (on : Bool)
  | hdcp (status : Hdcp)
  deriving DecidableEq

/-- The event as it is written in log entries. -/
def Event.label : Event → String
  | .connected => "Connected"
  | .disconnected => "Disconnected"
  | .sensed on => "RxSense(" ++ toString on ++ ")"
  | .hdcp status => "Hdcp(" ++ status.label ++ ")"

/-- What a callback is registered for. -/
inductive EventClass where
  | display
  | hdcp
  deriving DecidableEq

/-- The class as it is written in log entries. -/
def EventClass.label : EventClass → String
  | .display => "Display"
  | .hdcp => "Hdcp"

/-- The class an event belongs to. -/
def Event.eventClass : Event → EventClass
  | .hdcp _ => .hdcp
  | _ => .display

/-- An event on the HDMI connector with a number. -/
structure Notice where
  index : UInt8
  event : Event
  deriving DecidableEq

end VideoOutput.Connector

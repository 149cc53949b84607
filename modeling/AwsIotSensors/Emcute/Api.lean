import AwsIotSensors.Lib.CString
import AwsIotSensors.Lib.Runs

/-!
# The emCute calls

The shell programs talk to the MQTT-SN gateway through the emCute library, which
is not part of the repository.  A call is answered by an `Answer`: what it
returns, and the topic id it stores if it succeeds.  Every call with its answer
is an `Exchange`, and what a sequence of exchanges means outside the program is
read off it: whether a connection is open (`connected`) and which topics the
gateway holds for the current session (`session`).  A call that returns
`EMCUTE_OK` took effect, any other did not.
-/

namespace AwsIotSensors.Emcute

open CString

/-- What an emCute call returns, as far as the programs tell it apart:
`EMCUTE_OK`, `EMCUTE_NOGW`, any other error. -/
inductive Result
  | ok
  | noGw
  | failed
deriving DecidableEq

/-- The answer to an emCute call.  `id` is the topic id stored by a successful
`emcute_sub` or `emcute_reg`. -/
structure Answer where
  result : Result
  id : UInt16
deriving DecidableEq

/-- The quality of service flags. -/
inductive Qos
  | qos0
  | qos1
  | qos2
deriving DecidableEq

/-- An IPv6 address. -/
abbrev Ipv6Addr := BitVec 128

/-- `sock_udp_ep_t`, family `AF_INET6`. -/
structure Endpoint where
  addr : Ipv6Addr
  port : UInt16
deriving DecidableEq

/-- An emCute call with what the gateway gets to see of its arguments. -/
inductive Call
  | con (gw : Endpoint) (clean : Bool) (will : Option (Text × Text))
  | discon
  | reg (name : Text)
  | pub (name : Text) (id : UInt16) (data : List Char) (flags : Qos)
  | sub (name : Text) (flags : Qos)
  | unsub (name : Text)
  | willupdTopic (topic : Text)
  | willupdMsg (message : Text)
deriving DecidableEq

/-- The call is an `emcute_con`. -/
def Call.isCon : Call → Bool
  | .con .. => true
  | _ => false

/-- The call is an `emcute_pub`. -/
def Call.isPub : Call → Bool
  | .pub .. => true
  | _ => false

/-- A call and its answer. -/
structure Exchange where
  call : Call
  answer : Answer
deriving DecidableEq

/-- The call returned `EMCUTE_OK`. -/
def Answer.accepted (answer : Answer) : Bool :=
  answer.result == .ok

/-! ## The connection -/

/-- Whether a connection is open after an exchange: an accepted `emcute_con`
opens it, an accepted `emcute_discon` closes it. -/
def Exchange.connected (before : Bool) (exchange : Exchange) : Bool :=
  match exchange.call with
  | .con .. => before || exchange.answer.accepted
  | .discon => before && !exchange.answer.accepted
  | _ => before

/-- Whether a connection is open after a sequence of exchanges. -/
def connected : Bool → List Exchange → Bool :=
  Runs.after Exchange.connected

/-- `emcute_con` is refused if it is called while a connection is open. -/
def Exchange.RefusesSecondCon (before : Bool) (exchange : Exchange) : Prop :=
  exchange.call.isCon → before → ¬ exchange.answer.accepted

instance (before : Bool) (exchange : Exchange) :
    Decidable (exchange.RefusesSecondCon before) :=
  inferInstanceAs (Decidable (_ → _ → _))

/-! ## The session at the gateway -/

/-- The topics the gateway holds for the current session, if there is one, after
an exchange. -/
def Exchange.session (before : Option (Finset Text)) (exchange : Exchange) :
    Option (Finset Text) :=
  if exchange.answer.accepted then
    match exchange.call with
    | .con _ clean _ => some (if clean then ∅ else before.getD ∅)
    | .discon => none
    | .sub name _ => before.map (insert name)
    | .unsub name => before.map fun topics => topics.erase name
    | _ => before
  else before

/-- The topics the gateway holds after a sequence of exchanges. -/
def session : Option (Finset Text) → List Exchange → Option (Finset Text) :=
  Runs.after Exchange.session

end AwsIotSensors.Emcute

import AwsIotSensors.Emcute.Api

/-!
# The shell commands

`main.c` of `emcute_mqttsn`, function by function; the two `random_pub` programs
contain the same `cmd_con`, `cmd_pub` and `cmd_sub`.  A command gets `argv[1]`
and the arguments after it (`argv[0]` is the command's own name, by which the
shell found it), the answers to the emCute calls it makes, in order, and the
subscription table.

`topics` is the flat array of the source: row `i` starts at `rowStart i`, the
cells from `numofsubs * topicMaxlen` on belong to other objects, and a slot
points at its row by address.
-/

namespace AwsIotSensors.Emcute

open CString

/-- `NUMOFSUBS`. -/
abbrev numofsubs : ℕ := 16

/-- `TOPIC_MAXLEN`. -/
abbrev topicMaxlen : ℕ := 64

/-- `EMCUTE_PORT`. -/
def emcutePort : UInt16 := 1883

/-- The callbacks of a subscription. -/
inductive Callback
  | onPub
deriving DecidableEq

/-- `emcute_topic_t`: the name is NULL or an address in `topics`. -/
structure Topic where
  name : Option ℕ
  id : UInt16
deriving DecidableEq

/-- `emcute_sub_t`. -/
structure Subscription where
  topic : Topic
  cb : Option Callback
deriving DecidableEq

/-- The subscription table: `subscriptions` and `topics`. -/
structure Client where
  subscriptions : Fin numofsubs → Subscription
  topics : Memory

/-- A zeroed `emcute_sub_t`. -/
def Subscription.zero : Subscription := ⟨⟨none, 0⟩, none⟩

/-- The table at the start of `main`: both arrays are zeroed. -/
def Client.initial : Client := ⟨fun _ => Subscription.zero, fun _ => nul⟩

/-- The address of `topics[i]`. -/
def rowStart (i : Fin numofsubs) : ℕ := i * topicMaxlen

/-- The copy of a topic name into `topics[slot]`. -/
structure Copy where
  slot : Fin numofsubs
  name : Text
deriving DecidableEq

/-- The cells `strcpy` writes, with their values. -/
def Copy.writes (copy : Copy) : List (ℕ × Char) :=
  strcpyWrites (rowStart copy.slot) copy.name.chars

/-- What a command does: the table it leaves, its return value, the lines it
prints, the emCute calls it makes, and the copy into `topics` if it makes one. -/
structure Outcome where
  client : Client
  ret : ℕ
  printed : List String
  exchanges : List Exchange
  copy : Option Copy

/-! ## Arguments -/

/-- `isspace`. -/
def isSpace (char : Char) : Bool :=
  char == ' ' || ('\t' ≤ char && char ≤ '\r')

/-- The value of the leading decimal digits. -/
def leadingNumber (chars : List Char) : ℕ :=
  (chars.takeWhile Char.isDigit).foldl (fun value digit => 10 * value + (digit.toNat - 48)) 0

/-- `atoi`. -/
def atoi (text : Text) : ℤ :=
  match text.chars.dropWhile isSpace with
  | '-' :: digits => -(leadingNumber digits : ℤ)
  | '+' :: digits => leadingNumber digits
  | digits => leadingNumber digits

/-- `get_qos`. -/
def getQos (str : Text) : Qos :=
  match atoi str with
  | 1 => .qos1
  | 2 => .qos2
  | _ => .qos0

/-- `flags |= get_qos(argv[k])` if the argument is there. -/
def qosOf : List Text → Qos
  | [] => .qos0
  | level :: _ => getQos level

/-! ## The table -/

/-- The loop that looks for an empty subscription slot. -/
def Client.firstFree (client : Client) : Option (Fin numofsubs) :=
  Fin.find? fun i => (client.subscriptions i).topic.id == 0

/-- The slot has a name, and it compares equal to `name`. -/
def Client.carries (client : Client) (i : Fin numofsubs) (name : Text) : Bool :=
  match (client.subscriptions i).topic.name with
  | none => false
  | some address => strcmpEq client.topics address name

/-- The loop that looks for a subscription entry. -/
def Client.firstNamed (client : Client) (name : Text) : Option (Fin numofsubs) :=
  Fin.find? fun i => client.carries i name

/-- The three assignments of `cmd_sub` before the call: callback, copy, pointer. -/
def Client.prepare (client : Client) (i : Fin numofsubs) (name : Text) : Client where
  subscriptions := Function.update client.subscriptions i
    ⟨⟨some (rowStart i), (client.subscriptions i).topic.id⟩, some .onPub⟩
  topics := strcpy client.topics (rowStart i) name

/-- What `emcute_sub(&subscriptions[i], flags)` leaves in the slot. -/
def Client.emcuteSub (client : Client) (i : Fin numofsubs) (answer : Answer) : Client :=
  if answer.accepted then
    let sub := client.subscriptions i
    { client with subscriptions :=
        Function.update client.subscriptions i ⟨⟨sub.topic.name, answer.id⟩, sub.cb⟩ }
  else client

/-- `memset(&subscriptions[i], 0, sizeof(emcute_sub_t))`. -/
def Client.clear (client : Client) (i : Fin numofsubs) : Client :=
  { client with subscriptions := Function.update client.subscriptions i Subscription.zero }

/-! ## The commands -/

/-- An early return with a message, before anything else has happened. -/
def Outcome.stop (client : Client) (line : String) : Outcome :=
  ⟨client, 1, [line], [], none⟩

/-- `cmd_con`.  `ipv6AddrFromStr` is `ipv6_addr_from_str` of RIOT. -/
def cmdCon (ipv6AddrFromStr : Text → Option Ipv6Addr) (answers : ℕ → Answer)
    (args : List Text) (client : Client) : Outcome :=
  match args with
  | [] => .stop client "usage: con <ipv6 addr> [port] [<will topic> <will message>]"
  | address :: rest =>
      match ipv6AddrFromStr address with
      | none => .stop client "error parsing IPv6 address"
      | some addr =>
          let port := match rest with
            | [] => emcutePort
            | port :: _ => UInt16.ofInt (atoi port)
          let will := match rest with
            | _ :: topic :: message :: _ => some (topic, message)
            | _ => none
          let place := "[" ++ address.toString ++ "]:" ++ port.toNat.repr
          let exchange : Exchange := ⟨.con ⟨addr, port⟩ true will, answers 0⟩
          if (answers 0).accepted then
            ⟨client, 0, ["Successfully connected to gateway at " ++ place], [exchange], none⟩
          else ⟨client, 1, ["error: unable to connect to " ++ place], [exchange], none⟩

/-- `cmd_discon`. -/
def cmdDiscon (answers : ℕ → Answer) (_args : List Text) (client : Client) : Outcome :=
  let exchange : Exchange := ⟨.discon, answers 0⟩
  match (answers 0).result with
  | .noGw => ⟨client, 1, ["error: not connected to any broker"], [exchange], none⟩
  | .failed => ⟨client, 1, ["error: unable to disconnect"], [exchange], none⟩
  | .ok => ⟨client, 0, ["Disconnect successful"], [exchange], none⟩

/-- The topic a publication error or success is reported with. -/
def topicShown (name : Text) (id : UInt16) : String :=
  "'" ++ name.toString ++ " [" ++ id.toNat.repr ++ "]'"

/-- `cmd_pub`. -/
def cmdPub (answers : ℕ → Answer) (args : List Text) (client : Client) : Outcome :=
  match args with
  | name :: data :: rest =>
      let flags := qosOf rest
      -- The line ends with the numeric flags, which are defined in `emcute.h`.
      let intro := "pub with topic: " ++ name.toString ++ " and name " ++ data.toString
      let registered : Exchange := ⟨.reg name, answers 0⟩
      if (answers 0).accepted then
        let id := (answers 0).id
        let published : Exchange := ⟨.pub name id data.chars flags, answers 1⟩
        if (answers 1).accepted then
          ⟨client, 0, [intro, "Published " ++ (strlen data).repr ++ " bytes to topic " ++
            topicShown name id], [registered, published], none⟩
        else
          ⟨client, 1, [intro, "error: unable to publish data to topic " ++ topicShown name id],
            [registered, published], none⟩
      else ⟨client, 1, [intro, "error: unable to obtain topic ID"], [registered], none⟩
  | _ => .stop client "usage: pub <topic name> <data> [QoS level]"

/-- `cmd_sub`. -/
def cmdSub (answers : ℕ → Answer) (args : List Text) (client : Client) : Outcome :=
  match args with
  | [] => .stop client "usage: sub <topic name> [QoS level]"
  | name :: rest =>
      if strlen name > topicMaxlen then
        .stop client "error: topic name exceeds maximum possible size"
      else
        match client.firstFree with
        | none => .stop client "error: no memory to store new subscriptions"
        | some i =>
            let client := (client.prepare i name).emcuteSub i (answers 0)
            let exchange : Exchange := ⟨.sub name (qosOf rest), answers 0⟩
            if (answers 0).accepted then
              ⟨client, 0, ["Now subscribed to " ++ name.toString], [exchange], some ⟨i, name⟩⟩
            else
              ⟨client, 1, ["error: unable to subscribe to " ++ name.toString], [exchange],
                some ⟨i, name⟩⟩

/-- `cmd_unsub`. -/
def cmdUnsub (answers : ℕ → Answer) (args : List Text) (client : Client) : Outcome :=
  match args with
  | [] => .stop client "usage unsub <topic name>"
  | name :: _ =>
      match client.firstNamed name with
      | none =>
          .stop client ("error: no subscription for topic '" ++ name.toString ++ "' found")
      | some i =>
          let exchange : Exchange := ⟨.unsub name, answers 0⟩
          if (answers 0).accepted then
            ⟨client.clear i, 0, ["Unsubscribed from '" ++ name.toString ++ "'"], [exchange], none⟩
          else
            ⟨client, 0, ["Unsubscription form '" ++ name.toString ++ "' failed"], [exchange],
              none⟩

/-- `cmd_will`. -/
def cmdWill (answers : ℕ → Answer) (args : List Text) (client : Client) : Outcome :=
  match args with
  | topic :: message :: _ =>
      let first : Exchange := ⟨.willupdTopic topic, answers 0⟩
      if (answers 0).accepted then
        let second : Exchange := ⟨.willupdMsg message, answers 1⟩
        if (answers 1).accepted then
          ⟨client, 0, ["Successfully updated last will topic and message"], [first, second],
            none⟩
        else
          ⟨client, 1, ["error: unable to update the last will message"], [first, second], none⟩
      else ⟨client, 1, ["error: unable to update the last will topic"], [first], none⟩
  | _ => .stop client "usage will <will topic name> <will message content>"

/-- The command table of `emcute_mqttsn`. -/
inductive Command
  | con
  | discon
  | pub
  | sub
  | unsub
  | will
deriving DecidableEq

/-- One line entered into the shell, and the answers it gets. -/
structure Entry where
  command : Command
  args : List Text
  answers : ℕ → Answer

/-- The handler of a command, on an entry. -/
def Entry.run (ipv6AddrFromStr : Text → Option Ipv6Addr) (entry : Entry) : Client → Outcome :=
  match entry.command with
  | .con => cmdCon ipv6AddrFromStr entry.answers entry.args
  | .discon => cmdDiscon entry.answers entry.args
  | .pub => cmdPub entry.answers entry.args
  | .sub => cmdSub entry.answers entry.args
  | .unsub => cmdUnsub entry.answers entry.args
  | .will => cmdWill entry.answers entry.args

/-- A gateway address, as it is typed into the shell. -/
def gatewayAddress : Text := .ofString "fd00::1"

/-- The address itself. -/
def gatewayAddr : Ipv6Addr := 0xfd000000000000000000000000000001

/-- `ipv6_addr_from_str` on this address; other texts are left out. -/
def gatewayFromStr (text : Text) : Option Ipv6Addr :=
  if text = gatewayAddress then some gatewayAddr else none

end AwsIotSensors.Emcute

import AwsIotSensors.Dashboard.Requests
import AwsIotSensors.Lib.Dict
import AwsIotSensors.Lib.JsonText

/-!
# The routes as texts

What goes over the wire.  The stored messages are dictionaries of any values of
DynamoDB, the server writes them with `json.dumps` and `DecimalEncoder`, and the
browser parses the text.

`dumps_reads_back` is the round trip of the writer for any value that Python's recursion
limit leaves to it: either there is a value in it that JSON has no form for, and
`TypeError` is raised, or the text is in ASCII and is read as the document of the value.  With messages of single values the
routes of texts refine those of `Requests.lean`, which compute with functions from
keys to values (`transport_refines`).
-/

namespace AwsIotSensors.Dashboard

open Exceptions PlainText
open Json (Document)

/-- A value in an item, as boto3 returns it.  Of binary values and of sets it is only
said that there are such. -/
inductive PyValue
  | decimal (text : Text)
  | string (text : Text)
  | bool (value : Bool)
  | null
  | list (elements : List PyValue)
  | dict (members : List (Text × PyValue))
  | other

/-- The exceptions of a route: those of the database class, and that of `json.dumps`. -/
inductive ServerError
  | raised (error : PyError)
  | typeError
deriving DecidableEq

/-! ## The writer -/

/-- `DecimalEncoder.default`, which is asked for what `json.dumps` cannot write. -/
def DecimalEncoder.default : PyValue → Except ServerError Text
  | .decimal text => .ok text
  | _ => .error .typeError

mutual

/-- `json.dumps(value, cls=DecimalEncoder)`.  `RecursionError` is left out: DynamoDB
stores no value nested more than 32 levels deep. -/
def dumps : PyValue → Except ServerError Text
  | .string text => .ok (Json.quoted text)
  | .bool true => .ok "true".toList
  | .bool false => .ok "false".toList
  | .null => .ok "null".toList
  | .list elements => do return Json.arrayText (← dumpsElements elements)
  | .dict members => do return Json.objectText (← dumpsMembers members)
  | .decimal text => do return Json.quoted (← DecimalEncoder.default (.decimal text))
  | .other => do return Json.quoted (← DecimalEncoder.default .other)

/-- The texts of the elements of a list. -/
def dumpsElements : List PyValue → Except ServerError (List Text)
  | [] => .ok []
  | value :: rest => do
      let text ← dumps value
      return text :: (← dumpsElements rest)

/-- The keys and texts of the entries of a dictionary. -/
def dumpsMembers : List (Text × PyValue) → Except ServerError (List (Text × Text))
  | [] => .ok []
  | (key, value) :: rest => do
      let text ← dumps value
      return (key, text) :: (← dumpsMembers rest)

end

mutual

/-- What a value is in JSON, if it has a form there. -/
def PyValue.document : PyValue → Option Document
  | .decimal text => some (.string text)
  | .string text => some (.string text)
  | .bool value => some (.bool value)
  | .null => some .null
  | .list elements => (documents elements).map .array
  | .dict members => (memberDocuments members).map .object
  | .other => none

/-- The documents of the elements of a list. -/
def documents : List PyValue → Option (List Document)
  | [] => some []
  | value :: rest => value.document.bind fun first => (documents rest).map (first :: ·)

/-- The keys and documents of the entries of a dictionary. -/
def memberDocuments : List (Text × PyValue) → Option (List (Text × Document))
  | [] => some []
  | (key, value) :: rest => value.document.bind fun first =>
      (memberDocuments rest).map ((key, first) :: ·)

end

/-- The text is in ASCII and is read as the document. -/
def Writes (text : Text) (document : Document) : Prop :=
  text.all Json.isPrintable ∧ Json.Decodes text document

/-- The writer succeeds with a text of the document, or there is none and it fails. -/
def Renders {α β : Type} (writes : α → β → Prop) (result : Except ServerError α)
    (document : Option β) : Prop :=
  result = .error .typeError ∧ document = none ∨
    ∃ text written, result = .ok text ∧ document = some written ∧ writes text written

/-- What is made of the text of a part is a text of what is made of its document. -/
theorem Renders.map {α β γ δ : Type} {writes : α → β → Prop} {writes' : γ → δ → Prop}
    {result : Except ServerError α} {document : Option β} {compose : α → γ} {build : β → δ}
    (hrenders : Renders writes result document)
    (hwrites : ∀ text written, writes text written → writes' (compose text) (build written)) :
    Renders writes' (do return compose (← result)) (document.map build) := by
  rcases hrenders with ⟨rfl, rfl⟩ | ⟨text, written, rfl, rfl, htext⟩
  · exact Or.inl ⟨rfl, rfl⟩
  · exact Or.inr ⟨compose text, build written, rfl, rfl, hwrites text written htext⟩

/-- Two parts are written one after the other. -/
theorem Renders.bind {α β γ δ ε ζ : Type} {writes : α → β → Prop} {writes' : γ → δ → Prop}
    {writes'' : ε → ζ → Prop} {result : Except ServerError α} {document : Option β}
    {result' : Except ServerError γ} {document' : Option δ} {compose : α → γ → ε}
    {build : β → δ → ζ} (hfirst : Renders writes result document)
    (hsecond : Renders writes' result' document')
    (hwrites : ∀ text written text' written', writes text written → writes' text' written' →
      writes'' (compose text text') (build written written')) :
    Renders writes'' (do let text ← result; return compose text (← result'))
      (document.bind fun first => document'.map (build first)) := by
  rcases hfirst with ⟨rfl, rfl⟩ | ⟨text, written, rfl, rfl, htext⟩
  · exact Or.inl ⟨rfl, rfl⟩
  · exact hsecond.map fun text' written' htext' => hwrites text written text' written' htext htext'

theorem renders_of_writes {text : Text} {document : Document} (hwrites : Writes text document) :
    Renders Writes (.ok text) (some document) :=
  Or.inr ⟨text, document, rfl, rfl, hwrites⟩

theorem writes_quoted (text : Text) : Writes (Json.quoted text) (.string text) :=
  ⟨Json.printable_quoted text, Json.decodes_quoted text⟩

/-- The text of an entry is in ASCII, and its key and text are read as the member. -/
def WritesEntry (entry : Text × Text) (member : Text × Document) : Prop :=
  entry.2.all Json.isPrintable ∧ Json.DecodesEntry entry member

theorem writes_array {texts : List Text} {documents : List Document}
    (hwrites : List.Forall₂ Writes texts documents) :
    Writes (Json.arrayText texts) (.array documents) := by
  obtain ⟨hprintable, hdecodes⟩ := (List.forall₂_and_left texts documents).mp hwrites
  exact ⟨Json.printable_arrayText hprintable, Json.decodes_array hdecodes⟩

theorem writes_object {entries : List (Text × Text)} {members : List (Text × Document)}
    (hwrites : List.Forall₂ WritesEntry entries members) :
    Writes (Json.objectText entries) (.object members) := by
  obtain ⟨hprintable, hdecodes⟩ := (List.forall₂_and_left entries members).mp hwrites
  exact ⟨Json.printable_objectText hprintable, Json.decodes_object hdecodes⟩

mutual

/-- A value is written as its document. -/
theorem renders_dumps : ∀ value : PyValue, Renders Writes (dumps value) value.document
  | .string text => renders_of_writes (writes_quoted text)
  | .bool true => renders_of_writes ⟨by decide, Json.decodes_true⟩
  | .bool false => renders_of_writes ⟨by decide, Json.decodes_false⟩
  | .null => renders_of_writes ⟨by decide, Json.decodes_null⟩
  | .list elements => (renders_dumpsElements elements).map fun _ _ => writes_array
  | .dict members => (renders_dumpsMembers members).map fun _ _ => writes_object
  | .decimal text => renders_of_writes (writes_quoted text)
  | .other => Or.inl ⟨rfl, rfl⟩

/-- A list is written element by element. -/
theorem renders_dumpsElements : ∀ elements : List PyValue,
    Renders (List.Forall₂ Writes) (dumpsElements elements) (documents elements)
  | [] => Or.inr ⟨[], [], rfl, rfl, .nil⟩
  | value :: rest => (renders_dumps value).bind (renders_dumpsElements rest)
      fun _ _ _ _ hfirst hrest => .cons hfirst hrest

/-- A dictionary is written entry by entry. -/
theorem renders_dumpsMembers : ∀ members : List (Text × PyValue),
    Renders (List.Forall₂ WritesEntry) (dumpsMembers members) (memberDocuments members)
  | [] => Or.inr ⟨[], [], rfl, rfl, .nil⟩
  | (_, value) :: rest => (renders_dumps value).bind (renders_dumpsMembers rest)
      fun _ _ _ _ hfirst hrest => .cons ⟨hfirst.1, rfl, hfirst.2⟩ hrest

end

/-- **The round trip of the writer.**  A value with a binary value or a set in it
raises `TypeError`; any other is written in ASCII, and what the browser reads is its
document: a `Decimal` as the string of it, and the members of a dictionary with their
keys, in their order. -/
theorem dumps_reads_back (value : PyValue) :
    dumps value = .error .typeError ∧ value.document = none ∨
      ∃ text document, dumps value = .ok text ∧ value.document = some document ∧
        text.all Json.isPrintable ∧ Json.read text = some document := by
  rcases renders_dumps value with hfails | hwritten
  · exact Or.inl hfails
  · obtain ⟨text, document, htext, hdocument, hprintable, hdecodes⟩ := hwritten
    exact Or.inr ⟨text, document, htext, hdocument, hprintable, Json.read_of_decodes hdecodes⟩

example : dumps (.dict [("temperature".toList, .decimal "20.5".toList),
      ("notes".toList, .list [.string "18 \u00b0C".toList, .null])]) =
    .ok "\x7b\"temperature\": \"20.5\", \"notes\": [\"18 \\u00b0C\", null]\x7d".toList :=
  rfl

/-! ## The routes -/

/-- An item of the table as it is stored, without its partition key. -/
structure StoredItem where
  timestamp : Text
  message : Dict Text PyValue

/-- The table as it is stored: the items of each sensor in the order of their sort keys,
newest first. -/
abbrev StoredTable := Text → List StoredItem

namespace Wire

variable (fromtimestamp : ℤ → Except PyError HourMinute) (table : StoredTable)

/-- The message of an item with its timestamp made readable. -/
def stamp (item : StoredItem) : Except PyError (Dict Text PyValue) := do
  let seconds ← int (item.timestamp.take (item.timestamp.length - 3))
  let time ← fromtimestamp seconds
  return item.message.set timestampKey (.string time.strftime)

/-- `DB.retrieve_values(sensor)`. -/
def retrieveValues (sensor : Text) : Except PyError (List (Dict Text PyValue)) :=
  ((table sensor).take 20).mapM (stamp fromtimestamp)

/-- `DB.retrieve_value(sensor)`. -/
def retrieveValue (sensor : Text) : Except PyError (Dict Text PyValue) := do
  firstItem (← retrieveValues fromtimestamp table sensor)

/-- `sensor`, the route `/<sensor>/`. -/
def sensor (sensor : Text) : Except ServerError Text := do
  let messages ← (retrieveValues fromtimestamp table sensor).mapError .raised
  dumps (.list (messages.map fun message => .dict message.entries))

/-- `sensor_metric`, the route `/<sensor>/last`. -/
def sensorMetric (sensor : Text) : Except ServerError Text := do
  let message ← (retrieveValue fromtimestamp table sensor).mapError .raised
  dumps (.dict message.entries)

end Wire

/-! ## The browser -/

/-- A single value, as the script sees it. -/
def jsValue : Document → Option JsValue
  | .string text => some (.string text)
  | .bool value => some (.bool value)
  | .null => some .null
  | _ => none

/-- An object of single values, as the script sees it: of two members with one name
the later one counts. -/
def jsObject : Document → Option Json
  | .object members => do
      let properties ← members.mapM fun entry => (jsValue entry.2).map fun value =>
        (entry.1, value)
      return fun key => properties.reverse.lookup key
  | _ => none

/-- What `jQuery.getJSON` passes on of a text with one object. -/
def getJSON (text : Text) : Option Json := do
  jsObject (← Json.read text)

/-- The same for a text with a list of objects. -/
def getJSONs (text : Text) : Option (List Json) := do
  match ← Json.read text with
  | .array elements => elements.mapM jsObject
  | _ => none

/-! ## Single values -/

/-- A single value among those of DynamoDB. -/
def Value.stored : Value → PyValue
  | .decimal text => .decimal text
  | .string text => .string text
  | .bool value => .bool value
  | .null => .null

/-- The document of a single value. -/
def Value.document : Value → Document
  | .decimal text => .string text
  | .string text => .string text
  | .bool value => .bool value
  | .null => .null

theorem stored_injective : Function.Injective Value.stored := by
  intro first second heq
  cases first <;> cases second <;> simp_all [Value.stored]

theorem document_stored (value : Value) : value.stored.document = some value.document := by
  cases value <;> rfl

theorem jsValue_document (value : Value) : jsValue value.document = some value.json := by
  cases value <;> rfl

/-- The message holds the stored values, which are single ones. -/
def Holds (stored : Dict Text PyValue) (message : Message) : Prop :=
  ∀ key, stored.get key = (message key).map Value.stored

/-- The item stands for the stored one. -/
def StandsFor (stored : StoredItem) (item : Item) : Prop :=
  stored.timestamp = item.timestamp ∧ Holds stored.message item.message

/-- The entries of a dictionary of single values. -/
theorem Holds.entries {stored : Dict Text PyValue} {message : Message}
    (hholds : Holds stored message) :
    ∃ values : List (Text × Value),
      stored.entries = values.map (fun entry => (entry.1, entry.2.stored)) ∧
      ∀ key, message key = values.lookup key := by
  have hvalues : ∀ entry ∈ stored.entries, ∃ value : Text × Value,
      (value.1, value.2.stored) = entry := by
    intro entry hentry
    have hget : stored.get entry.1 = some entry.2 := Dict.lookup_of_mem stored.nodup hentry
    rw [hholds, Option.map_eq_some_iff] at hget
    obtain ⟨value, -, hvalue⟩ := hget
    exact ⟨(entry.1, value), by rw [hvalue]⟩
  obtain ⟨values, hentries⟩ : ∃ values : List (Text × Value),
      values.map (fun entry => (entry.1, entry.2.stored)) = stored.entries := by
    rw [← Set.mem_range, Set.range_list_map]
    exact hvalues
  refine ⟨values, hentries.symm, ?_⟩
  intro key
  have hget := hholds key
  rw [Dict.get, ← hentries, Dict.lookup_map] at hget
  exact (Option.map_injective stored_injective hget).symm

theorem memberDocuments_stored (values : List (Text × Value)) :
    memberDocuments (values.map fun entry => (entry.1, entry.2.stored)) =
      some (values.map fun entry => (entry.1, entry.2.document)) := by
  induction values with
  | nil => rfl
  | cons entry values ih =>
      rw [List.map_cons, memberDocuments, document_stored, ih]
      rfl

theorem jsObject_document (values : List (Text × Value)) :
    jsObject (.object (values.map fun entry => (entry.1, entry.2.document))) =
      some fun key =>
        (values.map fun entry => (entry.1, entry.2.json)).reverse.lookup key := by
  have hmembers : ((values.map fun entry => (entry.1, entry.2.document)).mapM
        fun entry => (jsValue entry.2).map fun value => (entry.1, value)) =
      some (values.map fun entry => (entry.1, entry.2.json)) := by
    induction values with
    | nil => rfl
    | cons entry values ih =>
        rw [List.map_cons, List.mapM_cons, ih, jsValue_document]
        rfl
  rw [jsObject, hmembers]
  rfl

/-- **A message of single values** gets to the script as it is. -/
theorem Holds.document {stored : Dict Text PyValue} {message : Message}
    (hholds : Holds stored message) :
    ∃ document, (PyValue.dict stored.entries).document = some document ∧
      jsObject document = some message.json := by
  obtain ⟨values, hentries, hlookup⟩ := hholds.entries
  refine ⟨.object (values.map fun entry => (entry.1, entry.2.document)), ?_, ?_⟩
  · rw [PyValue.document, hentries, memberDocuments_stored]
    rfl
  · rw [jsObject_document]
    congr 1
    funext key
    have hnodup : ((values.map fun entry => (entry.1, entry.2.json)).map Prod.fst).Nodup := by
      have hkeys := stored.nodup
      rw [hentries] at hkeys
      rwa [List.map_map] at hkeys ⊢
    rw [Dict.lookup_reverse hnodup, Dict.lookup_map, Message.json, hlookup]

/-- The same for a list of messages. -/
theorem documents_of_holds {stored : List (Dict Text PyValue)} {messages : List Message}
    (hholds : List.Forall₂ Holds stored messages) :
    ∃ elements, documents (stored.map fun message => .dict message.entries) = some elements ∧
      elements.mapM jsObject = some (messages.map Message.json) := by
  induction hholds with
  | nil => exact ⟨[], rfl, rfl⟩
  | cons hmessage _ ih =>
      obtain ⟨document, hdocument, hobject⟩ := hmessage.document
      obtain ⟨elements, helements, hobjects⟩ := ih
      refine ⟨document :: elements, ?_, ?_⟩
      · rw [List.map_cons, documents, hdocument, helements]
        rfl
      · rw [List.mapM_cons, hobject, hobjects]
        rfl

/-! ## What is retrieved -/

variable {fromtimestamp : ℤ → Except PyError HourMinute} {table : StoredTable}
  {database : Database} {sensor : Text}

theorem agree_stamp {stored : StoredItem} {item : Item} (hitem : StandsFor stored item) :
    Agree Holds (Wire.stamp fromtimestamp stored) (stamp fromtimestamp item) := by
  obtain ⟨htimestamp, hholds⟩ := hitem
  rw [Wire.stamp, stamp, htimestamp]
  cases int (item.timestamp.take (item.timestamp.length - 3)) with
  | error error => exact .raised error
  | ok seconds =>
      rw [ok_bind, ok_bind]
      cases fromtimestamp seconds with
      | error error => exact .raised error
      | ok time =>
          refine .returned fun key => ?_
          rw [Dict.get_set]
          by_cases hkey : key = timestampKey
          · rw [hkey, Function.update_self, Function.update_self]
            rfl
          · rw [Function.update_of_ne hkey, Function.update_of_ne hkey, hholds]

theorem agree_retrieveValues (hitems : List.Forall₂ StandsFor (table sensor) (database sensor)) :
    Agree (List.Forall₂ Holds) (Wire.retrieveValues fromtimestamp table sensor)
      (retrieveValues fromtimestamp database sensor) :=
  Agree.mapM (List.forall₂_take 20 hitems) fun _ _ => agree_stamp

theorem agree_retrieveValue (hitems : List.Forall₂ StandsFor (table sensor) (database sensor)) :
    Agree Holds (Wire.retrieveValue fromtimestamp table sensor)
      (retrieveValue fromtimestamp database sensor) := by
  refine (agree_retrieveValues hitems).bind fun stored messages hholds => ?_
  cases hholds with
  | nil => exact .raised PyError.indexError
  | cons hmessage _ => exact .returned hmessage

/-! ## The main statement -/

/-- What is sent is what the route computes: the same exception, or a text in ASCII
that the browser reads as the value. -/
def Delivers {α : Type} (parse : Text → Option α) (sent : Except ServerError Text) :
    Except PyError α → Prop
  | .error error => sent = .error (.raised error)
  | .ok value =>
      ∃ text, sent = .ok text ∧ text.all Json.isPrintable ∧ parse text = some value

/-- What is retrieved alike is delivered, if the documents are read as they should. -/
theorem delivers_of_agree {α β γ : Type} {related : α → β → Prop} {retrieved : Except PyError α}
    {specified : Except PyError β} (hagree : Agree related retrieved specified)
    {value : α → PyValue} {compute : β → γ} {parse : Text → Option γ}
    (hparse : ∀ stored message, related stored message → ∃ document,
      (value stored).document = some document ∧
      ∀ text, Json.read text = some document → parse text = some (compute message)) :
    Delivers parse (do dumps (value (← retrieved.mapError .raised)))
      (do return compute (← specified)) := by
  cases hagree with
  | raised error => rfl
  | @returned stored message hrelated =>
      obtain ⟨document, hdocument, hread⟩ := hparse stored message hrelated
      rcases renders_dumps (value stored) with ⟨-, hnone⟩ | hwritten
      · rw [hnone] at hdocument
        cases hdocument
      · obtain ⟨text, document', htext, hdocument', hprintable, hdecodes⟩ := hwritten
        obtain rfl := Option.some.inj (hdocument.symm.trans hdocument')
        exact ⟨text, htext, hprintable, hread text (Json.read_of_decodes hdecodes)⟩

/-- The last value is delivered. -/
theorem sensorMetric_delivers (fromtimestamp : ℤ → Except PyError HourMinute)
    {table : StoredTable} {database : Database} {sensor : Text}
    (hitems : List.Forall₂ StandsFor (table sensor) (database sensor)) :
    Delivers getJSON (Wire.sensorMetric fromtimestamp table sensor)
      (Route.sensorMetric fromtimestamp database sensor) := by
  refine delivers_of_agree (agree_retrieveValue hitems) fun stored message hholds => ?_
  obtain ⟨document, hdocument, hobject⟩ := hholds.document
  refine ⟨document, hdocument, fun text hread => ?_⟩
  rw [getJSON, hread]
  exact hobject

/-- The list of the newest values is delivered. -/
theorem sensor_delivers (fromtimestamp : ℤ → Except PyError HourMinute)
    {table : StoredTable} {database : Database} {sensor : Text}
    (hitems : List.Forall₂ StandsFor (table sensor) (database sensor)) :
    Delivers getJSONs (Wire.sensor fromtimestamp table sensor)
      (Route.sensor fromtimestamp database sensor) := by
  refine delivers_of_agree (agree_retrieveValues hitems) fun stored messages hholds => ?_
  obtain ⟨elements, helements, hobjects⟩ := documents_of_holds hholds
  refine ⟨.array elements, ?_, fun text hread => ?_⟩
  · rw [PyValue.document, helements]
    rfl
  · rw [getJSONs, hread]
    exact hobjects

/-- **The routes of texts** refine those that compute with functions: for any table
of messages of single values, and whatever `fromtimestamp` raises, the script gets
the same objects, or the client the same exception. -/
theorem transport_refines (fromtimestamp : ℤ → Except PyError HourMinute) {table : StoredTable}
    {database : Database} {sensor : Text}
    (hitems : List.Forall₂ StandsFor (table sensor) (database sensor)) :
    Delivers getJSON (Wire.sensorMetric fromtimestamp table sensor)
        (Route.sensorMetric fromtimestamp database sensor) ∧
      Delivers getJSONs (Wire.sensor fromtimestamp table sensor)
        (Route.sensor fromtimestamp database sensor) :=
  ⟨sensorMetric_delivers fromtimestamp hitems, sensor_delivers fromtimestamp hitems⟩

/-- The values of a message with a note in quotes. -/
def noted : List (Text × Value) :=
  [("temperature".toList, .decimal "20.5".toList), ("note".toList, .string "\"18 \u00b0C\"".toList)]

/-- The stored item with these values. -/
def notedStored : StoredItem where
  timestamp := "1559383200000".toList
  message := ⟨noted.map fun entry => (entry.1, entry.2.stored), by decide⟩

theorem transport_refines_noted :
    Delivers getJSON (Wire.sensorMetric (fun seconds => .ok (utc seconds))
          (fun _ => [notedStored]) airSensor.text)
        (Route.sensorMetric (fun seconds => .ok (utc seconds))
          (fun _ => [⟨notedStored.timestamp, fun key => noted.lookup key⟩]) airSensor.text) ∧
      Delivers getJSONs (Wire.sensor (fun seconds => .ok (utc seconds))
          (fun _ => [notedStored]) airSensor.text)
        (Route.sensor (fun seconds => .ok (utc seconds))
          (fun _ => [⟨notedStored.timestamp, fun key => noted.lookup key⟩]) airSensor.text) :=
  transport_refines (fun seconds => .ok (utc seconds))
    (.cons ⟨rfl, fun key => Dict.lookup_map Value.stored key noted⟩ .nil)

/-! ## Which items are answered -/

/-- The message has a form in JSON once its timestamp is there: it may have a value
without one under the key that is overwritten. -/
def StoredItem.Expressible (item : StoredItem) : Prop :=
  ∀ key value, key ≠ timestampKey → item.message.get key = some value → value.document.isSome

theorem isOk_dumps_iff {value : PyValue} :
    (dumps value).isOk = true ↔ value.document.isSome := by
  rcases renders_dumps value with ⟨hfails, hnone⟩ | hwritten
  · simp [hfails, hnone, Except.isOk, Except.toBool]
  · obtain ⟨text, document, htext, hdocument, -⟩ := hwritten
    simp [htext, hdocument, Except.isOk, Except.toBool]

theorem isSome_documents_iff {elements : List PyValue} :
    (documents elements).isSome ↔ ∀ value ∈ elements, value.document.isSome := by
  induction elements with
  | nil => simp [documents]
  | cons value rest ih =>
      rw [List.forall_mem_cons, ← ih, documents]
      cases value.document <;> simp

theorem isSome_memberDocuments_iff {members : List (Text × PyValue)} :
    (memberDocuments members).isSome ↔ ∀ entry ∈ members, entry.2.document.isSome := by
  induction members with
  | nil => simp [memberDocuments]
  | cons entry rest ih =>
      rw [List.forall_mem_cons, ← ih, memberDocuments]
      cases entry.2.document <;> simp

theorem Wire.stamp_eq_ok {item : StoredItem} {message : Dict Text PyValue}
    (hstamp : Wire.stamp fromtimestamp item = .ok message) :
    ∃ time : HourMinute, message = item.message.set timestampKey (.string time.strftime) := by
  rw [Wire.stamp] at hstamp
  cases hseconds : int (item.timestamp.take (item.timestamp.length - 3)) with
  | error error =>
      rw [hseconds] at hstamp
      cases hstamp
  | ok seconds =>
      rw [hseconds, ok_bind] at hstamp
      cases htime : fromtimestamp seconds with
      | error error =>
          rw [htime] at hstamp
          cases hstamp
      | ok time =>
          rw [htime] at hstamp
          exact ⟨time, (Except.ok.inj hstamp).symm⟩

/-- The stamped message has a form if the item is expressible. -/
theorem isSome_document_iff {item : StoredItem} {message : Dict Text PyValue}
    (hstamp : Wire.stamp fromtimestamp item = .ok message) :
    (PyValue.dict message.entries).document.isSome ↔ item.Expressible := by
  obtain ⟨time, rfl⟩ := Wire.stamp_eq_ok hstamp
  rw [PyValue.document, Option.isSome_map, isSome_memberDocuments_iff]
  refine (Dict.forall_entries_iff _ fun _ (value : PyValue) =>
    value.document.isSome = true).trans ?_
  rw [Dict.get_set]
  constructor
  · intro hall key value hkey hget
    exact hall key value (by rwa [Function.update_of_ne hkey])
  · intro hexpressible key value hget
    by_cases hkey : key = timestampKey
    · rw [hkey, Function.update_self] at hget
      obtain rfl := Option.some.inj hget
      rfl
    · rw [Function.update_of_ne hkey] at hget
      exact hexpressible key value hkey hget

theorem isSome_documents_of_stamped {items : List StoredItem} {messages : List (Dict Text PyValue)}
    (hstamped : List.Forall₂ (fun item message => Wire.stamp fromtimestamp item = .ok message)
      items messages) :
    (documents (messages.map fun message => .dict message.entries)).isSome ↔
      ∀ item ∈ items, item.Expressible := by
  rw [isSome_documents_iff, List.forall_mem_map]
  induction hstamped with
  | nil => simp
  | cons hstamp _ ih =>
      rw [List.forall_mem_cons, List.forall_mem_cons, ih, isSome_document_iff hstamp]

theorem mapError_eq_ok_iff {α : Type} {result : Except PyError α} {value : α} :
    result.mapError ServerError.raised = .ok value ↔ result = .ok value := by
  cases result <;> simp [Except.mapError]

theorem Wire.retrieveValue_eq_ok_iff {message : Dict Text PyValue} :
    Wire.retrieveValue fromtimestamp table sensor = .ok message ↔
      ∃ rest, Wire.retrieveValues fromtimestamp table sensor = .ok (message :: rest) := by
  rw [Wire.retrieveValue]
  cases Wire.retrieveValues fromtimestamp table sensor with
  | error error => simp [bind, Except.bind]
  | ok messages => cases messages <;> simp [ok_bind, firstItem]

/-- **Which tables are answered in text.**  The times of all the newest items have to
convert for either route.  The list needs a form in JSON for each of the messages, the
last value only for the newest. -/
theorem wire_answers_iff (fromtimestamp : ℤ → Except PyError HourMinute) (table : StoredTable)
    (sensor : Text) :
    ((Wire.sensor fromtimestamp table sensor).isOk = true ↔
        (∀ item ∈ (table sensor).take 20, (Wire.stamp fromtimestamp item).isOk = true) ∧
          ∀ item ∈ (table sensor).take 20, item.Expressible) ∧
      ((Wire.sensorMetric fromtimestamp table sensor).isOk = true ↔
        (∀ item ∈ (table sensor).take 20, (Wire.stamp fromtimestamp item).isOk = true) ∧
          ∃ newest, (table sensor).head? = some newest ∧ newest.Expressible) := by
  have hvalues : (∀ item ∈ (table sensor).take 20, (Wire.stamp fromtimestamp item).isOk = true) ↔
      ∃ messages, Wire.retrieveValues fromtimestamp table sensor = .ok messages := by
    rw [← isOk_mapM_iff, isOk_iff_exists]
    rfl
  rw [hvalues]
  refine ⟨?_, ?_⟩
  · rw [Wire.sensor, isOk_bind_iff]
    simp only [mapError_eq_ok_iff, isOk_dumps_iff, PyValue.document, Option.isSome_map]
    rw [← exists_and_right]
    refine exists_congr fun messages => and_congr_right fun hmessages => ?_
    exact isSome_documents_of_stamped (mapM_eq_ok_iff.mp hmessages)
  · rw [Wire.sensorMetric, isOk_bind_iff]
    simp only [mapError_eq_ok_iff, isOk_dumps_iff, Wire.retrieveValue_eq_ok_iff]
    constructor
    · intro hanswered
      obtain ⟨message, ⟨rest, hvalues⟩, hsome⟩ := hanswered
      refine ⟨⟨message :: rest, hvalues⟩, ?_⟩
      obtain ⟨newest, older, hstamp, -, hitems⟩ :=
        List.forall₂_cons_right_iff.mp (mapM_eq_ok_iff.mp hvalues)
      refine ⟨newest, ?_, (isSome_document_iff hstamp).mp hsome⟩
      have hhead : ((table sensor).take 20).head? = some newest := by
        rw [hitems, List.head?_cons]
      rwa [List.head?_take, if_neg (by decide)] at hhead
    · intro hboth
      obtain ⟨⟨messages, hvalues⟩, newest, hnewest, hexpressible⟩ := hboth
      obtain ⟨older, hitems⟩ := List.head?_eq_some_iff.mp hnewest
      have hstamped := mapM_eq_ok_iff.mp hvalues
      rw [hitems, List.take_succ_cons, List.forall₂_cons_left_iff] at hstamped
      obtain ⟨message, rest, hstamp, -, rfl⟩ := hstamped
      exact ⟨message, ⟨rest, hvalues⟩, (isSome_document_iff hstamp).mpr hexpressible⟩

end AwsIotSensors.Dashboard

import LlmBus.Foundation.Timestamp
import LlmBus.Schema

/-! # The wire format

A job becomes a JSON tree field by field, under the wire aliases, and is read back
through the validators of the contract. Turning a tree into bytes, the limits on the way
back, and the lenient readings of numbers and timestamps are the validation library's;
`Pydantic` holds them with the facts the bus relies on.
-/

namespace LlmBus

open Foundation

inductive Json where
  | null
  | bool (b : Bool)
  | int (n : ℤ)
  | float (x : Double)
  | str (s : Text)
  | arr (items : List Json)
  | obj (entries : List (Text × Json))

abbrev JsonEntries := List (Text × Json)

mutual

def Json.surrogateFree : Json → Bool
  | .str s => Foundation.surrogateFree s
  | .arr items => Json.surrogateFreeList items
  | .obj entries => Json.surrogateFreeEntries entries
  | _ => true

def Json.surrogateFreeList : List Json → Bool
  | [] => true
  | j :: rest => j.surrogateFree && Json.surrogateFreeList rest

def Json.surrogateFreeEntries : JsonEntries → Bool
  | [] => true
  | (k, j) :: rest => Foundation.surrogateFree k && j.surrogateFree && Json.surrogateFreeEntries rest

end

mutual

/-- How many lists and dicts stand in each other. -/
def Value.depth : Value → Nat
  | .list items => Value.depthList items + 1
  | .dict entries => Value.depthEntries entries + 1
  | _ => 0

def Value.depthList : List Value → Nat
  | [] => 0
  | v :: rest => max v.depth (Value.depthList rest)

def Value.depthEntries : Entries → Nat
  | [] => 0
  | (_, v) :: rest => max v.depth (Value.depthEntries rest)

end

mutual

def Json.depth : Json → Nat
  | .arr items => Json.depthList items + 1
  | .obj entries => Json.depthEntries entries + 1
  | _ => 0

def Json.depthList : List Json → Nat
  | [] => 0
  | j :: rest => max j.depth (Json.depthList rest)

def Json.depthEntries : JsonEntries → Nat
  | [] => 0
  | (_, j) :: rest => max j.depth (Json.depthEntries rest)

end

mutual

/-- Every integer is below the bound in absolute value. -/
def Json.intsBelow (bound : Nat) : Json → Bool
  | .int n => decide (n.natAbs < bound)
  | .arr items => Json.intsBelowList bound items
  | .obj entries => Json.intsBelowEntries bound entries
  | _ => true

def Json.intsBelowList (bound : Nat) : List Json → Bool
  | [] => true
  | j :: rest => j.intsBelow bound && Json.intsBelowList bound rest

def Json.intsBelowEntries (bound : Nat) : JsonEntries → Bool
  | [] => true
  | (_, j) :: rest => j.intsBelow bound && Json.intsBelowEntries bound rest

end

structure Pydantic where
  Payload : Type
  /-- How deep free-form values can be nested; at the limit itself it depends on what stands
  innermost. -/
  writeLimit : Nat
  /-- The free-form dict gets past the serializer's recursion guard. -/
  writable : Entries → Bool
  writable_of_lt : ∀ entries, (Value.dict entries).depth < writeLimit → writable entries = true
  not_writable_of_lt : ∀ entries, writeLimit < (Value.dict entries).depth → writable entries = false
  /-- A top-level key of a free-form dict, with every lone surrogate replaced. -/
  writeKey : Text → Text
  writeKey_of_surrogateFree : ∀ k, Foundation.surrogateFree k = true → writeKey k = k
  surrogateFree_writeKey : ∀ k, Foundation.surrogateFree (writeKey k) = true
  writeJson : Json → Payload
  readJson : Payload → Option Json
  /-- How deep a body can be nested, again but for what stands innermost. -/
  readLimit : Nat
  /-- The integers of a body have so many digits at most. -/
  intLimit : Nat
  readable : Json → Bool
  readable_of_lt : ∀ j, j.depth < readLimit → j.intsBelow (10 ^ intLimit) = true → readable j = true
  not_readable_of_lt : ∀ j, readLimit < j.depth → readable j = false
  readJson_writeJson : ∀ j, j.surrogateFree = true →
    readJson (writeJson j) = if readable j then some j else none
  writeDatetime : DateTime → Text
  /-- An aware timestamp out of a JSON value. -/
  readDatetime : Json → Option DateTime
  asciiText_writeDatetime : ∀ t, asciiText (writeDatetime t) = true
  readDatetime_whole : ∀ t, t.offset.natAbs % microsPerMinute = 0 →
    readDatetime (.str (writeDatetime t)) = some t
  /-- Whatever becomes of the offset, the local date and time survive. -/
  readDatetime_local : ∀ t, ∃ t', readDatetime (.str (writeDatetime t)) = some t' ∧
    t'.date = t.date ∧ t'.micros = t.micros
  readFloat : Json → Option Double
  readFloat_float : ∀ x, readFloat (.float x) = some x
  readInt : Json → Option ℤ
  readInt_int : ∀ n, readInt (.int n) = some n

/-! ### Writing -/

/-- A float as pydantic serializes it: the non-finite ones become null. -/
def floatJson (x : Double) : Json :=
  if x.isFinite then .float x else .null

mutual

/-- `none` where some value has no JSON form. -/
def Value.toJson : Value → Option Json
  | .null => some .null
  | .bool b => some (.bool b)
  | .int n => some (.int n)
  | .float x => some (floatJson x)
  | .str s => some (.str s)
  | .list items => (Value.toJsonList items).map .arr
  | .dict entries => (Value.toJsonEntries entries).map .obj
  | .object _ => none

def Value.toJsonList : List Value → Option (List Json)
  | [] => some []
  | v :: rest =>
    match v.toJson, Value.toJsonList rest with
    | some j, some js => some (j :: js)
    | _, _ => none

def Value.toJsonEntries : Entries → Option JsonEntries
  | [] => some []
  | (k, v) :: rest =>
    match v.toJson, Value.toJsonEntries rest with
    | some j, some js => some ((k, j) :: js)
    | _, _ => none

end

def optionalJson {α : Type} (f : α → Json) : Option α → Json
  | none => .null
  | some a => f a

def Role.text : Role → Text
  | .system => txt "system"
  | .user => txt "user"
  | .assistant => txt "assistant"

def Message.toJson (m : Message) : Json :=
  .obj [(txt "role", .str m.role.text), (txt "content", .str m.content)]

def maxTokensJson (n : { n : Nat // 0 < n }) : Json :=
  .int n.val

def ttlJson (ttl : Ttl) : Json :=
  .float (.finite ttl.seconds)

/-- A field of type `dict[str, Any]`: the keys of the dict itself are written, whatever they hold. -/
def dictJson (pyd : Pydantic) (entries : Entries) : Option JsonEntries :=
  (Value.toJsonEntries entries).map fun js => js.map fun e => (pyd.writeKey e.1, e.2)

def ResponseFormat.toJson (pyd : Pydantic) (format : ResponseFormat) : Option Json :=
  (dictJson pyd format.jsonSchema).map fun schema =>
    .obj [(txt "type", .str (txt "json_schema")), (txt "name", .str format.name),
      (txt "schema", .obj schema)]

def JobParams.toJson (pyd : Pydantic) (params : JobParams) : Option Json :=
  let withFormat (format : Json) : Json :=
    .obj [(txt "temperature", optionalJson floatJson params.temperature),
      (txt "max_tokens", optionalJson maxTokensJson params.maxTokens),
      (txt "response_format", format)]
  match params.responseFormat with
  | none => some (withFormat .null)
  | some format => (format.toJson pyd).map withFormat

/-- `model_dump_json(by_alias=True)`, as a tree. -/
def Job.toJson (pyd : Pydantic) (job : Job) : Option Json :=
  match job.params.toJson pyd, dictJson pyd job.metadata with
  | some params, some metadata => some (.obj
    [(txt "job_id", .str job.jobId.text), (txt "project", .str job.project),
      (txt "kind", .str job.kind), (txt "model", optionalJson .str job.model),
      (txt "messages", .arr (job.messages.map Message.toJson)), (txt "params", params),
      (txt "callback_url", optionalJson .str job.callbackUrl), (txt "meta", .obj metadata),
      (txt "submitted_at", .str (pyd.writeDatetime job.submittedAt)),
      (txt "ttl_s", optionalJson ttlJson job.ttlS)])
  | _, _ => none

def unserializable (message : String) : PyError :=
  ⟨.serializationError, txt message⟩

def Job.writable (pyd : Pydantic) (job : Job) : Bool :=
  (job.params.responseFormat.all fun format => pyd.writable format.jsonSchema) &&
    pyd.writable job.metadata

/-- Which of several faults is named is the serializer's own choice. -/
def encodeJob (pyd : Pydantic) (job : Job) : Except PyError pyd.Payload :=
  match job.toJson pyd with
  | none => .error (unserializable "Unable to serialize unknown type")
  | some json =>
    if json.surrogateFree = false then .error (unserializable "surrogates not allowed")
    else if job.writable pyd = false then
      .error (unserializable "Circular reference detected (depth exceeded)")
    else .ok (pyd.writeJson json)

/-! ### Reading -/

/-- A repeated key takes the later value at the earlier place. -/
def insertEntry (entries : Entries) (k : Text) (v : Value) : Entries :=
  if entries.any fun e => e.1 == k then entries.map fun e => if e.1 = k then (k, v) else e
  else entries ++ [(k, v)]

def dictOf (pairs : Entries) : Entries :=
  pairs.foldl (fun entries e => insertEntry entries e.1 e.2) []

mutual

def Value.ofJson : Json → Value
  | .null => .null
  | .bool b => .bool b
  | .int n => .int n
  | .float x => .float x
  | .str s => .str s
  | .arr items => .list (Value.ofJsonList items)
  | .obj entries => .dict (dictOf (Value.ofJsonEntries entries))

def Value.ofJsonList : List Json → List Value
  | [] => []
  | j :: rest => .ofJson j :: Value.ofJsonList rest

def Value.ofJsonEntries : JsonEntries → Entries
  | [] => []
  | (k, j) :: rest => (k, .ofJson j) :: Value.ofJsonEntries rest

end

/-- A model's field; the last one counts where the key is repeated. -/
def field (entries : JsonEntries) (name : String) : Option Json :=
  entries.reverse.lookup (txt name)

/-- `extra="forbid"` -/
def onlyKeys (names : List String) (entries : JsonEntries) : Bool :=
  entries.all fun e => names.any fun name => e.1 == txt name

def readText : Json → Option Text
  | .str s => some s
  | _ => none

/-- An optional field: absent and null both leave it unset. -/
def nullable {α : Type} (read : Json → Option α) : Option Json → Option (Option α)
  | none => some none
  | some .null => some none
  | some j => (read j).map some

def readDict : Json → Option Entries
  | .obj entries => some (dictOf (Value.ofJsonEntries entries))
  | _ => none

def readRole : Json → Option Role
  | .str s =>
    if s = txt "system" then some .system
    else if s = txt "user" then some .user
    else if s = txt "assistant" then some .assistant
    else none
  | _ => none

def readMessage : Json → Option Message
  | .obj entries =>
    if onlyKeys ["role", "content"] entries then do
      let role ← (field entries "role").bind readRole
      let content ← (field entries "content").bind readText
      some ⟨role, content⟩
    else none
  | _ => none

def readMessages : Json → Option (List Message)
  | .arr items => items.mapM readMessage
  | _ => none

/-- The schema stands under its wire key or under its name; the wire key comes first. -/
def readResponseFormat : Json → Option ResponseFormat
  | .obj entries =>
    if onlyKeys ["type", "name", "schema", "json_schema"] entries then do
      let type ← ((field entries "type").getD (.str (txt "json_schema")) |> readText)
      let name ← (field entries "name").bind readText
      let schema ← ((field entries "schema").or (field entries "json_schema")).bind readDict
      if type = txt "json_schema" then
        if hName : name ≠ [] then
          if hSchema : strictObjectSchema schema = true then some ⟨name, schema, hName, hSchema⟩
          else none
        else none
      else none
    else none
  | _ => none

def readMaxTokens (pyd : Pydantic) (j : Json) : Option { n : Nat // 0 < n } := do
  let n ← pyd.readInt j
  if h : 0 < n then some ⟨n.toNat, by omega⟩ else none

def readParams (pyd : Pydantic) : Json → Option JobParams
  | .obj entries =>
    if onlyKeys ["temperature", "max_tokens", "response_format"] entries then do
      let temperature ← nullable pyd.readFloat (field entries "temperature")
      let maxTokens ← nullable (readMaxTokens pyd) (field entries "max_tokens")
      let responseFormat ← nullable readResponseFormat (field entries "response_format")
      some ⟨temperature, maxTokens, responseFormat⟩
    else none
  | _ => none

def readTtl (pyd : Pydantic) (j : Json) : Option Ttl := do
  match ← pyd.readFloat j with
  | .finite q => if h : 0 < q ∧ q ≤ maxTtlS then some ⟨q, h.1, h.2⟩ else none
  | _ => none

/-- What the default factories of `job_id` and `submitted_at` would produce. -/
structure Fresh where
  jobId : JobId
  submittedAt : DateTime

def jobFields : List String :=
  ["job_id", "project", "kind", "model", "messages", "params", "callback_url", "meta",
    "submitted_at", "ttl_s"]

/-- A field with a default: an absent one takes it, a null one does not. -/
def defaulted {α : Type} (fallback : α) (read : Json → Option α) : Option Json → Option α
  | none => some fallback
  | some j => read j

def readJobId (py : Interpreter) (j : Json) : Option JobId :=
  (readText j).bind (Uuid.parse py)

def readJob (py : Interpreter) (pyd : Pydantic) (fresh : Fresh) : Json → Option Job
  | .obj entries =>
    if onlyKeys jobFields entries then do
      let jobId ← defaulted fresh.jobId (readJobId py) (field entries "job_id")
      let project ← (field entries "project").bind readText
      let kind ← (field entries "kind").bind readText
      let model ← nullable readText (field entries "model")
      let messages ← (field entries "messages").bind readMessages
      let params ← defaulted ⟨none, none, none⟩ (readParams pyd) (field entries "params")
      let callbackUrl ← nullable readText (field entries "callback_url")
      let metadata ← defaulted [] readDict (field entries "meta")
      let submittedAt ← defaulted fresh.submittedAt pyd.readDatetime (field entries "submitted_at")
      let ttlS ← nullable (readTtl pyd) (field entries "ttl_s")
      some ⟨jobId, project, kind, model, messages, params, callbackUrl, metadata, submittedAt, ttlS⟩
    else none
  | _ => none

def decodeJob (py : Interpreter) (pyd : Pydantic) (fresh : Fresh) (payload : pyd.Payload) :
    Except PyError Job :=
  match (pyd.readJson payload).bind (readJob py pyd fresh) with
  | some job => .ok job
  | none => .error ⟨.validationError, txt "validation error for Job"⟩

end LlmBus

import LlmBus.Foundation.Calendar
import LlmBus.Foundation.Double
import LlmBus.Foundation.Uuid

/-! # The message contract

`Job` is what producers place on the topic, `Result` what the worker writes to the
store. Each validator of the contract is carried by the type it guards, so a value of
these types is one the contract accepts.
-/

namespace LlmBus

open Foundation

/-! ### Exceptions -/

inductive ErrorKind where
  | valueError
  | typeError
  | overflowError
  | unicodeEncodeError
  | integrityError
  | operationalError
  | validationError
  | serializationError
  | unknownModelError
  | unknownProviderError
  | modelPolicyError
  | brokerError
  deriving DecidableEq

structure PyError where
  kind : ErrorKind
  message : Text
  deriving DecidableEq

theorem bind_eq_ok_iff {ε α β : Type} {x : Except ε α} {f : α → Except ε β} {b : β} :
    x >>= f = .ok b ↔ ∃ a, x = .ok a ∧ f a = .ok b := by
  cases x with
  | error e => simp [bind, Except.bind]
  | ok a => simp [bind, Except.bind]

/-- An exception out of a provider call, by what the worker reads of it. -/
structure ProviderError where
  typeName : Text
  /-- Whether it is a `TimeoutError` or a `ConnectionError`. -/
  transport : Bool
  /-- `status_code`, where it is an integer. -/
  statusCode : Option ℤ
  text : Text
  deriving DecidableEq

/-! ### Free-form values -/

/-- A value inside `meta` or a response schema, as JSON has them: a tuple, which is written as a
list, a key that is no string, which is written as one, and what only one of the two writers takes,
such as a date, are left out. `object` is anything neither has a form for, by the name of its type.
NaN is equal to itself here, as it is not in Python. -/
inductive Value where
  | null
  | bool (b : Bool)
  | int (n : ℤ)
  | float (x : Double)
  | str (s : Text)
  | list (items : List Value)
  | dict (entries : List (Text × Value))
  | object (typeName : Text)

abbrev Entries := List (Text × Value)

mutual

/-- What `json.dumps` raises on the value; it writes the non-finite floats too. Nesting that its
recursion limit refuses is left out. -/
def Value.dumpFailure : Value → Option PyError
  | .int n =>
    if n.natAbs < 10 ^ Interpreter.maxDigits then none
    else some ⟨.valueError, txt "Exceeds the limit (4300 digits) for integer string conversion"⟩
  | .list items => Value.dumpFailureList items
  | .dict entries => Value.dumpFailureEntries entries
  | .object typeName => some ⟨.typeError,
      txt "Object of type " ++ typeName ++ txt " is not JSON serializable"⟩
  | _ => none

def Value.dumpFailureList : List Value → Option PyError
  | [] => none
  | v :: rest => v.dumpFailure.or (Value.dumpFailureList rest)

def Value.dumpFailureEntries : Entries → Option PyError
  | [] => none
  | (_, v) :: rest => v.dumpFailure.or (Value.dumpFailureEntries rest)

end

/-! ### Jobs -/

abbrev JobId := Uuid

/-- Only the object schemas that both providers' strict mode accepts: a top level of
type `object` that forbids additional properties. -/
def strictObjectSchema (schema : Entries) : Bool :=
  (match schema.lookup (txt "type") with
    | some (.str s) => s == txt "object"
    | _ => false) &&
  match schema.lookup (txt "additionalProperties") with
    | some (.bool false) => true
    | _ => false

structure ResponseFormat where
  name : Text
  jsonSchema : Entries
  name_nonempty : name ≠ []
  schema_strict : strictObjectSchema jsonSchema = true

inductive Role where
  | system
  | user
  | assistant
  deriving DecidableEq

structure Message where
  role : Role
  content : Text
  deriving DecidableEq

structure JobParams where
  temperature : Option Double
  maxTokens : Option { n : Nat // 0 < n }
  responseFormat : Option ResponseFormat

def maxTtlS : ℚ := 86400

structure Ttl where
  seconds : ℚ
  pos : 0 < seconds
  le_max : seconds ≤ maxTtlS
  deriving DecidableEq

structure Job where
  jobId : JobId
  project : Text
  kind : Text
  model : Option Text
  messages : List Message
  params : JobParams
  callbackUrl : Option Text
  metadata : Entries
  submittedAt : DateTime
  ttlS : Option Ttl

def newYear2026 : Date :=
  ⟨2026, 1, 1, by decide⟩

def plainJob : Job where
  jobId := ⟨0⟩
  project := txt "demo"
  kind := txt "chat"
  model := some (txt "gpt-5")
  messages := [⟨.user, txt "hello"⟩]
  params := ⟨none, none, none⟩
  callbackUrl := none
  metadata := []
  submittedAt := .startOf newYear2026
  ttlS := none

def Job.withModel (job : Job) (model : Text) : Job :=
  { job with model := some model }

/-! ### Results -/

structure Usage where
  inputTokens : ℤ
  outputTokens : ℤ
  costUsd : Double
  deriving DecidableEq

def Usage.zero : Usage :=
  ⟨0, 0, .finite 0⟩

inductive Outcome where
  | ok
  | error
  deriving DecidableEq

structure Result where
  jobId : JobId
  status : Outcome
  completion : Option Text
  usage : Usage
  provider : Option Text
  error : Option Text
  metadata : Entries

/-! ### Resolving the model -/

/-- The concrete model for `job`: its own where it names one, else the policy's. -/
def resolveModel (py : Interpreter) (job : Job) (policyModel : Option Text) : Except PyError Text :=
  match job.model, policyModel with
  | some model, _ => .ok model
  | none, some model => .ok model
  | none, none => .error ⟨.modelPolicyError,
      txt "no model policy for project " ++ py.repr job.project ++ txt " kind " ++
        py.repr job.kind ++ txt ", and the job set no model"⟩

end LlmBus

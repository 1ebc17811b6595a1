import LlmBus.Foundation.Handlers
import LlmBus.Processing
import LlmBus.Wire

/-! # The provider adapters

Each adapter builds the keyword arguments of one request from a job, asks its SDK client
for it, and reads a completion and the token usage out of the response. The clients are
the surroundings here: the worker's programs are carried out over what the adapters ask
of them.
-/

namespace LlmBus

open Foundation Interaction

def valueError (text : Text) : ProviderError :=
  ⟨txt "ValueError", false, none, text⟩

/-- An entry that is added to a request only where there is a value for it. -/
def optionalEntry (key : Text) (value : Option Value) : Entries :=
  (value.map fun v => (key, v)).toList

def messageValue (m : Message) : Value :=
  .dict [(txt "role", .str m.role.text), (txt "content", .str m.content)]

/-- `repr` of a finish or stop reason. -/
def reprReason (py : Interpreter) (reason : Option Text) : Text :=
  reason.elim (txt "None") py.repr

/-! ### OpenAI -/

def openaiMessages (messages : List Message) : Value :=
  .list (messages.map messageValue)

def openaiFormat (format : ResponseFormat) : Value :=
  .dict [(txt "type", .str (txt "json_schema")),
    (txt "json_schema", .dict [(txt "name", .str format.name), (txt "schema", .dict format.jsonSchema),
      (txt "strict", .bool true)])]

def openaiRequest (py : Interpreter) (model : Text) (messages : List Message) (params : JobParams) :
    Except ProviderError Entries :=
  if params.temperature.isSome then
    .error (valueError (txt "model " ++ py.repr model ++
      txt (" does not support a caller-set temperature; the " ++
        "GPT-5 family only uses its fixed default, so leave temperature unset")))
  else
    .ok ([(txt "model", .str model), (txt "messages", openaiMessages messages)] ++
      optionalEntry (txt "max_completion_tokens") (params.maxTokens.map fun n => .int n.val) ++
      optionalEntry (txt "response_format") (params.responseFormat.map openaiFormat))

structure ChatChoice where
  finishReason : Option Text
  content : Option Text

structure OpenaiUsage where
  promptTokens : ℤ
  completionTokens : ℤ

structure ChatCompletion where
  choices : List ChatChoice
  usage : Option OpenaiUsage

def openaiCompletion (py : Interpreter) (response : ChatCompletion) : Except ProviderError Text :=
  match response.choices with
  | [] => .error ⟨txt "IndexError", false, none, txt "list index out of range"⟩
  | choice :: _ =>
    if choice.finishReason ≠ some (txt "stop") then
      .error (valueError (txt "OpenAI response finished with finish_reason=" ++
        reprReason py choice.finishReason ++
        txt (", not 'stop' — the completion is truncated or absent; with 'length' the " ++
          "max_completion_tokens budget ran out (GPT-5 spends it on reasoning " ++
          "tokens too, so raise params.max_tokens well above the expected output)")))
    else
      match choice.content with
      | none => .error (valueError (txt "OpenAI response carried no completion content"))
      | some content => .ok content

/-- The usage is optional in the SDK's own type. -/
def usageFromOpenai : Option OpenaiUsage → Except ProviderError (ℤ × ℤ)
  | none => .error ⟨txt "AttributeError", false, none,
      txt "'NoneType' object has no attribute 'prompt_tokens'"⟩
  | some usage => .ok (usage.promptTokens, usage.completionTokens)

/-! ### Anthropic -/

def modelsSupportingTemperature : List Text :=
  [txt "claude-haiku-4-5"]

def isSystem (m : Message) : Bool :=
  m.role = .system

/-- `"\n\n".join` -/
def joinParts (parts : List Text) : Text :=
  (txt "\n\n").intercalate parts

def anthropicSystemAndMessages (messages : List Message) : Option Text × List Value :=
  let systemParts := (messages.filter isSystem).map Message.content
  let chat := (messages.filter fun m => !isSystem m).map messageValue
  (if systemParts.isEmpty then none else some (joinParts systemParts), chat)

def anthropicTemperature (py : Interpreter) (model : Text) (params : JobParams) :
    Except ProviderError (Option Double) :=
  match params.temperature with
  | none => .ok none
  | some temperature =>
    if !modelsSupportingTemperature.contains model then
      .error (valueError (txt "model " ++ py.repr model ++
        txt " does not support a caller-set temperature; leave it unset"))
    else if !((Double.finite 0).le temperature && temperature.le (.finite 1)) then
      .error (valueError (txt "temperature " ++ py.floatText temperature ++
        txt " is out of range for " ++ py.repr model ++ txt "; Anthropic accepts 0.0-1.0"))
    else .ok (some temperature)

def anthropicFormat (format : ResponseFormat) : Value :=
  .dict [(txt "format",
    .dict [(txt "type", .str (txt "json_schema")), (txt "schema", .dict format.jsonSchema)])]

def anthropicRequest (py : Interpreter) (model : Text) (messages : List Message)
    (params : JobParams) : Except ProviderError Entries :=
  match params.maxTokens with
  | none => .error (valueError
      (txt "Anthropic requires max_tokens; set params.max_tokens for model " ++ py.repr model))
  | some maxTokens => do
    let split := anthropicSystemAndMessages messages
    let temperature ← anthropicTemperature py model params
    .ok ([(txt "model", .str model), (txt "max_tokens", .int maxTokens.val),
        (txt "messages", .list split.2)] ++
      optionalEntry (txt "system") (split.1.map .str) ++
      optionalEntry (txt "temperature") (temperature.map .float) ++
      optionalEntry (txt "output_config") (params.responseFormat.map anthropicFormat))

/-- A block of a response, with the text of a text block. -/
structure ContentBlock where
  type : Text
  text : Option Text

structure AnthropicMessage where
  stopReason : Option Text
  content : List ContentBlock
  inputTokens : ℤ
  outputTokens : ℤ

/-- The first text block that holds a text. -/
def firstText : List ContentBlock → Option Text
  | [] => none
  | block :: rest =>
    match block.text with
    | some text => if block.type = txt "text" then some text else firstText rest
    | none => firstText rest

def anthropicCompletion (py : Interpreter) (response : AnthropicMessage) :
    Except ProviderError Text :=
  if response.stopReason ≠ some (txt "end_turn") then
    .error (valueError (txt "Anthropic response stopped early (stop_reason=" ++
      reprReason py response.stopReason ++
      txt (", not 'end_turn') — the completion is truncated or absent; with " ++
        "'max_tokens', raise params.max_tokens")))
  else
    match firstText response.content with
    | none => .error (valueError (txt "Anthropic response carried no text block"))
    | some text => .ok text

def usageFromAnthropic (response : AnthropicMessage) : ℤ × ℤ :=
  (response.inputTokens, response.outputTokens)

/-! ### Both behind one contract -/

/-- The SDK client an adapter holds. -/
inductive SdkClient where
  | openai
  | anthropic
  deriving DecidableEq

namespace SdkClient

/-- `name` of the adapter. -/
def name : SdkClient → Text
  | .openai => LlmBus.openai
  | .anthropic => LlmBus.anthropic

abbrev Response : SdkClient → Type
  | .openai => ChatCompletion
  | .anthropic => AnthropicMessage

def request (py : Interpreter) : SdkClient → Text → List Message → JobParams →
    Except ProviderError Entries
  | .openai => openaiRequest py
  | .anthropic => anthropicRequest py

/-- The completion is read before the usage. -/
def read (py : Interpreter) : (client : SdkClient) → client.Response →
    Except ProviderError ProviderResult
  | .openai, response => do
    let completion ← openaiCompletion py response
    let usage ← usageFromOpenai response.usage
    .ok ⟨completion, usage.1, usage.2⟩
  | .anthropic, response => do
    let completion ← anthropicCompletion py response
    let usage := usageFromAnthropic response
    .ok ⟨completion, usage.1, usage.2⟩

end SdkClient

def clientOf (name : Text) : Option SdkClient :=
  if name = openai then some .openai
  else if name = anthropic then some .anthropic
  else none

inductive SdkOp (pyd : Pydantic) where
  | bus (op : BusOp pyd)
  /-- `client.chat.completions.create` or `client.messages.create`, under the job's timeout. -/
  | create (client : SdkClient) (request : Entries) (timeoutS : Double)

abbrev SdkOp.Reply {pyd : Pydantic} : SdkOp pyd → Type
  | .bus op => op.Reply
  | .create client .. => Except ProviderError client.Response

abbrev sdkInterface (pyd : Pydantic) : Interface where
  Op := SdkOp pyd
  Reply := SdkOp.Reply

variable {pyd : Pydantic}

/-- `OpenAIAdapter.call` and `AnthropicAdapter.call`, bounded by the timeout. -/
def adapterCall (py : Interpreter) (client : SdkClient) (model : Text) (messages : List Message)
    (params : JobParams) (timeoutS : Double) :
    Program (sdkInterface pyd) Empty (Except ProviderError ProviderResult) :=
  match client.request py model messages params with
  | .error e => .ret (.error e)
  | .ok request => .ask (.create client request timeoutS)
      fun reply : Except ProviderError client.Response => .ret (reply.bind (client.read py))

/-- The bus over the SDK clients; an adapter of some other provider stays as it is. -/
def overSdk (py : Interpreter) : Interpretation (busInterface pyd) (sdkInterface pyd)
  | .call name model messages params timeoutS =>
    match clientOf name with
    | some client => adapterCall py client model messages params timeoutS
    | none => .ask (.bus (.call name model messages params timeoutS)) .ret
  | op => .ask (.bus op) .ret

end LlmBus

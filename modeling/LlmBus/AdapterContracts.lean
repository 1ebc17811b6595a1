import LlmBus.Adapters

/-! # What the adapters promise

Which jobs a provider serves, what a request tells it, that every request keeps the rules
of its API, and what is read from a response.
-/

namespace LlmBus

open Foundation

/-! ### Which jobs a provider serves, and with what requests -/

/-- The rules on parameters that the adapters state for their providers. -/
def Serviceable (client : SdkClient) (model : Text) (params : JobParams) : Prop :=
  match client with
  | .openai => params.temperature = none
  | .anthropic => params.maxTokens.isSome = true ∧ ∀ t, params.temperature = some t →
      model ∈ modelsSupportingTemperature ∧ (Double.finite 0).le t = true ∧ t.le (.finite 1) = true

theorem openaiRequest_eq_ok {py : Interpreter} {model : Text} {messages : List Message}
    {params : JobParams} (h : params.temperature = none) :
    openaiRequest py model messages params =
      .ok ([(txt "model", .str model), (txt "messages", openaiMessages messages)] ++
        optionalEntry (txt "max_completion_tokens") (params.maxTokens.map fun n => .int n.val) ++
        optionalEntry (txt "response_format") (params.responseFormat.map openaiFormat)) := by
  simp [openaiRequest, h]

theorem anthropicTemperature_eq_ok_iff {py : Interpreter} {model : Text} {params : JobParams}
    {temperature : Option Double} :
    anthropicTemperature py model params = .ok temperature ↔
      temperature = params.temperature ∧ ∀ t, params.temperature = some t →
        model ∈ modelsSupportingTemperature ∧ (Double.finite 0).le t = true ∧
          t.le (.finite 1) = true := by
  unfold anthropicTemperature
  cases hTemperature : params.temperature with
  | none =>
    simp only [Except.ok.injEq, reduceCtorEq, IsEmpty.forall_iff, implies_true, and_true]
    exact eq_comm
  | some t =>
    simp only [Option.some.injEq, forall_eq', ← List.contains_iff_mem, ← Bool.and_eq_true]
    cases modelsSupportingTemperature.contains model with
    | false => simp
    | true =>
      cases (Double.finite 0).le t && t.le (.finite 1) with
      | false => simp
      | true =>
        simp only [Bool.not_true, Bool.false_eq_true, if_false, Except.ok.injEq, Bool.and_true, and_true]
        exact eq_comm

theorem anthropicRequest_eq_ok {py : Interpreter} {model : Text} {messages : List Message}
    {params : JobParams} {maxTokens : { n : Nat // 0 < n }} (hMax : params.maxTokens = some maxTokens)
    (hTemperature : ∀ t, params.temperature = some t →
      model ∈ modelsSupportingTemperature ∧ (Double.finite 0).le t = true ∧ t.le (.finite 1) = true) :
    anthropicRequest py model messages params =
      .ok ([(txt "model", .str model), (txt "max_tokens", .int maxTokens.val),
          (txt "messages", .list (anthropicSystemAndMessages messages).2)] ++
        optionalEntry (txt "system") ((anthropicSystemAndMessages messages).1.map .str) ++
        optionalEntry (txt "temperature") (params.temperature.map .float) ++
        optionalEntry (txt "output_config") (params.responseFormat.map anthropicFormat)) := by
  have hForwarded : anthropicTemperature py model params = .ok params.temperature :=
    anthropicTemperature_eq_ok_iff.mpr ⟨rfl, hTemperature⟩
  simp only [anthropicRequest, hMax, hForwarded]
  rfl

/-- The adapter builds a request exactly for the jobs that keep its provider's rules. -/
theorem request_isOk_iff (py : Interpreter) (client : SdkClient) (model : Text)
    (messages : List Message) (params : JobParams) :
    (∃ request, client.request py model messages params = .ok request) ↔
      Serviceable client model params := by
  cases client with
  | openai =>
    simp only [SdkClient.request, Serviceable]
    constructor
    · rintro ⟨request, h⟩
      cases hTemperature : params.temperature with
      | none => rfl
      | some t => simp [openaiRequest, hTemperature] at h
    · intro h
      exact ⟨_, openaiRequest_eq_ok h⟩
  | anthropic =>
    simp only [SdkClient.request, Serviceable]
    constructor
    · rintro ⟨request, h⟩
      cases hMax : params.maxTokens with
      | none => simp [anthropicRequest, hMax] at h
      | some maxTokens =>
        simp only [anthropicRequest, hMax] at h
        obtain ⟨temperature, hTemperature, _⟩ := bind_eq_ok_iff.mp h
        exact ⟨rfl, (anthropicTemperature_eq_ok_iff.mp hTemperature).2⟩
    · rintro ⟨hMax, hTemperature⟩
      obtain ⟨maxTokens, hMax⟩ := Option.isSome_iff_exists.mp hMax
      exact ⟨_, anthropicRequest_eq_ok hMax hTemperature⟩

/-! ### What a request says -/

/-- The part of a job that its provider gets to see. -/
structure Conveyed where
  model : Text
  maxTokens : Option Nat
  system : Option Text
  chat : List Message
  temperature : Option Double
  /-- The name of a response format, where the provider has a place for one. -/
  formatName : Option Text
  schema : Option Entries

def conveyed (client : SdkClient) (model : Text) (messages : List Message) (params : JobParams) :
    Conveyed :=
  match client with
  | .openai =>
    { model := model
      maxTokens := params.maxTokens.map Subtype.val
      system := none
      chat := messages
      temperature := none
      formatName := params.responseFormat.map ResponseFormat.name
      schema := params.responseFormat.map ResponseFormat.jsonSchema }
  | .anthropic =>
    { model := model
      maxTokens := params.maxTokens.map Subtype.val
      system := if messages.any isSystem then
          some (joinParts ((messages.filter isSystem).map Message.content)) else none
      chat := messages.filter fun m => !isSystem m
      temperature := params.temperature
      formatName := none
      schema := params.responseFormat.map ResponseFormat.jsonSchema }

theorem roleText_injective : Function.Injective Role.text := by
  intro a b h
  cases a with
  | system => cases b with
    | system => rfl
    | user => exact absurd h (by decide)
    | assistant => exact absurd h (by decide)
  | user => cases b with
    | system => exact absurd h (by decide)
    | user => rfl
    | assistant => exact absurd h (by decide)
  | assistant => cases b with
    | system => exact absurd h (by decide)
    | user => exact absurd h (by decide)
    | assistant => rfl

theorem messageValue_injective : Function.Injective messageValue := by
  rintro ⟨role, content⟩ ⟨role', content'⟩ h
  simp only [messageValue, Value.dict.injEq, List.cons.injEq, Prod.mk.injEq, Value.str.injEq,
    true_and, and_true] at h
  rw [roleText_injective h.1, h.2]

theorem key_of_mem_optionalEntry {key : Text} {value : Option Value} {e : Text × Value}
    (h : e ∈ optionalEntry key value) : e.1 = key := by
  cases value with
  | none => cases h
  | some v =>
    cases List.mem_singleton.mp h
    rfl

/-- What comes after an optional entry under other keys does not hide whether it is there. -/
theorem optionalEntry_append_inj {key : Text} {a b : Option Value} {rest rest' : Entries}
    (hRest : ∀ e ∈ rest, e.1 ≠ key) (hRest' : ∀ e ∈ rest', e.1 ≠ key) :
    optionalEntry key a ++ rest = optionalEntry key b ++ rest' ↔ a = b ∧ rest = rest' := by
  constructor
  · intro h
    cases a with
    | none =>
      cases b with
      | none => exact ⟨rfl, h⟩
      | some v =>
        have hMem : (key, v) ∈ rest := by
          rw [show rest = (key, v) :: rest' from h]
          exact List.mem_cons_self
        exact absurd rfl (hRest _ hMem)
    | some v =>
      cases b with
      | none =>
        have hMem : (key, v) ∈ rest' := by
          rw [← show (key, v) :: rest = rest' from h]
          exact List.mem_cons_self
        exact absurd rfl (hRest' _ hMem)
      | some v' =>
        obtain ⟨hHead, hTail⟩ := List.cons.inj h
        cases hHead
        exact ⟨rfl, hTail⟩
  · rintro ⟨rfl, rfl⟩
    rfl

theorem optionalEntry_inj {key : Text} {a b : Option Value} :
    optionalEntry key a = optionalEntry key b ↔ a = b := by
  have h := @optionalEntry_append_inj key a b [] []
    (fun e hNil => (List.not_mem_nil hNil).elim) fun e hNil => (List.not_mem_nil hNil).elim
  simpa using h

theorem messageValues_inj {messages messages' : List Message} :
    messages.map messageValue = messages'.map messageValue ↔ messages = messages' :=
  (List.map_injective_iff.mpr messageValue_injective).eq_iff

theorem maxTokens_inj {a b : Option { n : Nat // 0 < n }} :
    a.map (fun n => Value.int n.val) = b.map (fun n => Value.int n.val) ↔
      a.map Subtype.val = b.map Subtype.val := by
  cases a with
  | none => cases b with
    | none => simp
    | some n => simp
  | some m => cases b with
    | none => simp
    | some n => simp

theorem openaiFormat_inj {a b : Option ResponseFormat} :
    a.map openaiFormat = b.map openaiFormat ↔
      a.map ResponseFormat.name = b.map ResponseFormat.name ∧
        a.map ResponseFormat.jsonSchema = b.map ResponseFormat.jsonSchema := by
  cases a with
  | none => cases b with
    | none => simp
    | some format => simp
  | some format => cases b with
    | none => simp
    | some format' => simp [openaiFormat]

theorem anthropicFormat_inj {a b : Option ResponseFormat} :
    a.map anthropicFormat = b.map anthropicFormat ↔
      a.map ResponseFormat.jsonSchema = b.map ResponseFormat.jsonSchema := by
  cases a with
  | none => cases b with
    | none => simp
    | some format => simp
  | some format => cases b with
    | none => simp
    | some format' => simp [anthropicFormat]

theorem openaiEntries_inj {model model' : Text} {messages messages' : List Message}
    {params params' : JobParams} (h : params.temperature = none) (h' : params'.temperature = none)
    (py : Interpreter) :
    openaiRequest py model messages params = openaiRequest py model' messages' params' ↔
      conveyed .openai model messages params = conveyed .openai model' messages' params' := by
  have hFormat : ∀ {a : Option Value} e, e ∈ optionalEntry (txt "response_format") a →
      e.1 ≠ txt "max_completion_tokens" := by
    intro a e he
    rw [key_of_mem_optionalEntry he]
    decide
  rw [openaiRequest_eq_ok h, openaiRequest_eq_ok h', Except.ok.injEq, List.append_assoc,
    List.append_assoc]
  simp only [List.cons_append, List.nil_append, List.cons.injEq, Prod.mk.injEq, Value.str.injEq,
    true_and, openaiMessages, Value.list.injEq, messageValues_inj,
    optionalEntry_append_inj hFormat hFormat, optionalEntry_inj, maxTokens_inj, openaiFormat_inj,
    conveyed, Conveyed.mk.injEq]
  tauto

theorem anthropicSystem_eq (messages : List Message) :
    (anthropicSystemAndMessages messages).1 =
      if messages.any isSystem then
        some (joinParts ((messages.filter isSystem).map Message.content)) else none := by
  simp only [anthropicSystemAndMessages, List.isEmpty_iff, List.map_eq_nil_iff,
    List.filter_eq_nil_iff, List.any_eq_true]
  by_cases hSystem : ∃ m ∈ messages, isSystem m = true
  · rw [if_neg (fun hNone => hSystem.elim fun m hm => hNone m hm.1 hm.2), if_pos hSystem]
  · rw [if_pos (fun m hm hs => hSystem ⟨m, hm, hs⟩), if_neg hSystem]

theorem anthropicChat_eq (messages : List Message) :
    (anthropicSystemAndMessages messages).2 =
      (messages.filter fun m => !isSystem m).map messageValue := rfl

theorem anthropicEntries_inj {model model' : Text} {messages messages' : List Message}
    {params params' : JobParams} (h : Serviceable .anthropic model params)
    (h' : Serviceable .anthropic model' params') (py : Interpreter) :
    anthropicRequest py model messages params = anthropicRequest py model' messages' params' ↔
      conveyed .anthropic model messages params = conveyed .anthropic model' messages' params' := by
  obtain ⟨hMax, hTemperature⟩ := h
  obtain ⟨hMax', hTemperature'⟩ := h'
  obtain ⟨maxTokens, hMax⟩ := Option.isSome_iff_exists.mp hMax
  obtain ⟨maxTokens', hMax'⟩ := Option.isSome_iff_exists.mp hMax'
  have hConfig : ∀ {key : Text} {a : Option Value}, txt "output_config" ≠ key →
      ∀ e ∈ optionalEntry (txt "output_config") a, e.1 ≠ key := by
    intro key a hKey e he
    rw [key_of_mem_optionalEntry he]
    exact hKey
  have hRest : ∀ {a b : Option Value}, ∀ e ∈ optionalEntry (txt "temperature") a ++
      optionalEntry (txt "output_config") b, e.1 ≠ txt "system" := by
    intro a b e he
    cases List.mem_append.mp he with
    | inl hHere =>
      rw [key_of_mem_optionalEntry hHere]
      decide
    | inr hLater => exact hConfig (by decide) e hLater
  have hNotTemperature : txt "output_config" ≠ txt "temperature" := by decide
  rw [anthropicRequest_eq_ok hMax hTemperature, anthropicRequest_eq_ok hMax' hTemperature',
    Except.ok.injEq, List.append_assoc, List.append_assoc, List.append_assoc, List.append_assoc]
  simp only [List.cons_append, List.nil_append, List.cons.injEq, Prod.mk.injEq, Value.str.injEq,
    Value.int.injEq, Value.list.injEq, true_and, optionalEntry_append_inj hRest hRest,
    optionalEntry_append_inj (hConfig hNotTemperature) (hConfig hNotTemperature), optionalEntry_inj,
    anthropicFormat_inj, anthropicSystem_eq, anthropicChat_eq, messageValues_inj,
    (Option.map_injective fun _ _ => Value.str.inj).eq_iff,
    (Option.map_injective fun _ _ => Value.float.inj).eq_iff, conveyed, hMax, hMax', Option.map_some,
    Option.some.injEq, Nat.cast_inj, Conveyed.mk.injEq]
  tauto

/-- Two serviceable jobs lead to the same request exactly when their provider is to see the same of
them: nothing else of a job is lost, and nothing else gets through. -/
theorem request_eq_iff_conveyed {client : SdkClient} {model model' : Text}
    {messages messages' : List Message} {params params' : JobParams}
    (h : Serviceable client model params) (h' : Serviceable client model' params')
    (py : Interpreter) :
    client.request py model messages params = client.request py model' messages' params' ↔
      conveyed client model messages params = conveyed client model' messages' params' := by
  cases client with
  | openai => exact openaiEntries_inj h h' py
  | anthropic => exact anthropicEntries_inj h h' py

/-- Where the system messages stand among the others does not reach the provider. -/
theorem request_eq_iff_conveyed_reordered :
    SdkClient.anthropic.request .ascii (txt "claude") [⟨.system, txt "Be brief."⟩, ⟨.user, txt "Hi"⟩]
        ⟨none, some ⟨9, by decide⟩, none⟩ =
      SdkClient.anthropic.request .ascii (txt "claude") [⟨.user, txt "Hi"⟩, ⟨.system, txt "Be brief."⟩]
        ⟨none, some ⟨9, by decide⟩, none⟩ :=
  have hServiceable : Serviceable .anthropic (txt "claude") ⟨none, some ⟨9, by decide⟩, none⟩ :=
    ⟨rfl, fun _ hNone => by cases hNone⟩
  (request_eq_iff_conveyed hServiceable hServiceable .ascii).mpr rfl

/-! ### What a provider takes -/

/-- The rules of the two APIs that the adapters are written to, on the request itself. -/
def Accepts (client : SdkClient) (request : Entries) : Prop :=
  match client with
  | .openai =>
    request.lookup (txt "temperature") = none ∧ request.lookup (txt "max_tokens") = none ∧
      ∀ format, request.lookup (txt "response_format") = some format →
        ∃ name schema, strictObjectSchema schema = true ∧ format = .dict
          [(txt "type", .str (txt "json_schema")), (txt "json_schema", .dict
            [(txt "name", .str name), (txt "schema", .dict schema), (txt "strict", .bool true)])]
  | .anthropic =>
    (∃ n : Nat, 0 < n ∧ request.lookup (txt "max_tokens") = some (.int n)) ∧
      (∃ chat : List Message, request.lookup (txt "messages") = some (.list (chat.map messageValue)) ∧
        ∀ m ∈ chat, m.role ≠ .system) ∧
      ∀ v, request.lookup (txt "temperature") = some v →
        ∃ model t, request.lookup (txt "model") = some (.str model) ∧ v = .float t ∧
          model ∈ modelsSupportingTemperature ∧ (Double.finite 0).le t = true ∧
            t.le (.finite 1) = true

theorem lookup_optionalEntry (key key' : Text) (value : Option Value) :
    (optionalEntry key value).lookup key' = if key' = key then value else none := by
  cases value with
  | none => simp [optionalEntry]
  | some v =>
    rw [optionalEntry, Option.map_some, Option.toList_some, List.lookup_cons, List.lookup_nil]
    by_cases hKey : key' = key
    · rw [if_pos hKey, beq_iff_eq.mpr hKey]
    · rw [if_neg hKey, beq_eq_false_iff_ne.mpr hKey]

theorem accepts_openaiRequest {py : Interpreter} {model : Text} {messages : List Message}
    {params : JobParams} {request : Entries} (h : params.temperature = none)
    (hRequest : openaiRequest py model messages params = .ok request) : Accepts .openai request := by
  rw [openaiRequest_eq_ok h] at hRequest
  cases hRequest
  simp only [Accepts, List.cons_append, List.nil_append, List.lookup_cons, List.lookup_append,
    lookup_optionalEntry]
  refine ⟨rfl, rfl, fun format hFormat => ?_⟩
  have hOwn : params.responseFormat.map openaiFormat = some format := hFormat
  obtain ⟨own, _, rfl⟩ := Option.map_eq_some_iff.mp hOwn
  exact ⟨own.name, own.jsonSchema, own.schema_strict, rfl⟩

theorem accepts_anthropicRequest {py : Interpreter} {model : Text} {messages : List Message}
    {params : JobParams} {request : Entries} (h : Serviceable .anthropic model params)
    (hRequest : anthropicRequest py model messages params = .ok request) :
    Accepts .anthropic request := by
  obtain ⟨hMax, hTemperature⟩ := h
  obtain ⟨maxTokens, hMax⟩ := Option.isSome_iff_exists.mp hMax
  rw [anthropicRequest_eq_ok hMax hTemperature] at hRequest
  cases hRequest
  simp only [Accepts, List.cons_append, List.nil_append, List.lookup_cons, List.lookup_append,
    lookup_optionalEntry]
  refine ⟨⟨maxTokens.val, maxTokens.property, rfl⟩, ⟨messages.filter fun m => !isSystem m, rfl, ?_⟩, ?_⟩
  · intro m hm
    simpa [isSystem] using (List.mem_filter.mp hm).2
  · intro v hv
    have hOwn : (params.temperature.map Value.float).or none = some v := by
      cases hSystem : (anthropicSystemAndMessages messages).1 with
      | none =>
        rw [hSystem] at hv
        exact hv
      | some system =>
        rw [hSystem] at hv
        exact hv
    rw [Option.or_none] at hOwn
    obtain ⟨t, hT, rfl⟩ := Option.map_eq_some_iff.mp hOwn
    exact ⟨model, t, rfl, rfl, hTemperature t hT⟩

theorem request_accepted {py : Interpreter} {client : SdkClient} {model : Text}
    {messages : List Message} {params : JobParams} {request : Entries}
    (h : client.request py model messages params = .ok request) : Accepts client request := by
  have hServiceable := (request_isOk_iff py client model messages params).mp ⟨request, h⟩
  cases client with
  | openai => exact accepts_openaiRequest hServiceable h
  | anthropic => exact accepts_anthropicRequest hServiceable h

/-! ### What is read from a response -/

/-- The response finished cleanly with this completion and this usage. -/
def CleanFinish : (client : SdkClient) → client.Response → ProviderResult → Prop
  | .openai, response, call =>
    ∃ choice rest usage, response.choices = choice :: rest ∧
      choice.finishReason = some (txt "stop") ∧ choice.content = some call.completion ∧
      response.usage = some usage ∧ call.inputTokens = usage.promptTokens ∧
      call.outputTokens = usage.completionTokens
  | .anthropic, response, call =>
    response.stopReason = some (txt "end_turn") ∧
      (∃ before block after, response.content = before ++ block :: after ∧
        block.type = txt "text" ∧ block.text = some call.completion ∧
        ∀ b ∈ before, b.type = txt "text" → b.text = none) ∧
      call.inputTokens = response.inputTokens ∧ call.outputTokens = response.outputTokens

theorem firstText_eq_some_iff {content : List ContentBlock} {text : Text} :
    firstText content = some text ↔
      ∃ before block after, content = before ++ block :: after ∧ block.type = txt "text" ∧
        block.text = some text ∧ ∀ b ∈ before, b.type = txt "text" → b.text = none := by
  induction content with
  | nil => simp [firstText]
  | cons first rest ih =>
    by_cases hHere : first.type = txt "text" ∧ first.text.isSome = true
    · obtain ⟨hType, hSome⟩ := hHere
      obtain ⟨own, hOwn⟩ := Option.isSome_iff_exists.mp hSome
      simp only [firstText, hOwn, hType, if_true, Option.some.injEq]
      constructor
      · rintro rfl
        exact ⟨[], first, rest, rfl, hType, hOwn, fun b hNil => (List.not_mem_nil hNil).elim⟩
      · rintro ⟨before, block, after, hContent, _, hText, hBefore⟩
        cases before with
        | nil =>
          obtain ⟨rfl, _⟩ := List.cons.inj hContent
          exact Option.some.inj (hOwn.symm.trans hText)
        | cons b before =>
          obtain ⟨rfl, _⟩ := List.cons.inj hContent
          rw [hBefore first List.mem_cons_self hType] at hOwn
          cases hOwn
    · have hSkip : firstText (first :: rest) = firstText rest := by
        cases hText : first.text with
        | none => simp [firstText, hText]
        | some own =>
          have hType : first.type ≠ txt "text" := fun hType => hHere ⟨hType, by rw [hText]; rfl⟩
          simp [firstText, hText, hType]
      have hNone : first.type = txt "text" → first.text = none := by
        intro hType
        cases hText : first.text with
        | none => rfl
        | some own => exact absurd ⟨hType, by rw [hText]; rfl⟩ hHere
      rw [hSkip, ih]
      constructor
      · rintro ⟨before, block, after, rfl, hType, hText, hBefore⟩
        refine ⟨first :: before, block, after, rfl, hType, hText, fun b hb => ?_⟩
        cases List.mem_cons.mp hb with
        | inl hFirst =>
          rw [hFirst]
          exact hNone
        | inr hLater => exact hBefore b hLater
      · rintro ⟨before, block, after, hContent, hType, hText, hBefore⟩
        cases before with
        | nil =>
          obtain ⟨rfl, _⟩ := List.cons.inj hContent
          exact absurd ⟨hType, by rw [hText]; rfl⟩ hHere
        | cons b before =>
          obtain ⟨rfl, hRest⟩ := List.cons.inj hContent
          exact ⟨before, block, after, hRest, hType, hText,
            fun b hb => hBefore b (List.mem_cons_of_mem _ hb)⟩

theorem openaiCompletion_eq_ok_iff {py : Interpreter} {response : ChatCompletion} {text : Text} :
    openaiCompletion py response = .ok text ↔
      ∃ choice rest, response.choices = choice :: rest ∧
        choice.finishReason = some (txt "stop") ∧ choice.content = some text := by
  unfold openaiCompletion
  cases hChoices : response.choices with
  | nil => simp
  | cons choice rest =>
    simp only [List.cons.injEq]
    by_cases hStop : choice.finishReason = some (txt "stop")
    · cases hContent : choice.content with
      | none => simp [hStop, hContent]
      | some content => simp [hStop, hContent]
    · simp [hStop]

theorem anthropicCompletion_eq_ok_iff {py : Interpreter} {response : AnthropicMessage} {text : Text} :
    anthropicCompletion py response = .ok text ↔
      response.stopReason = some (txt "end_turn") ∧ firstText response.content = some text := by
  unfold anthropicCompletion
  by_cases hStop : response.stopReason = some (txt "end_turn")
  · cases hText : firstText response.content with
    | none => simp [hStop]
    | some own => simp [hStop]
  · simp [hStop]

/-- A result is read from a response exactly when it finished cleanly with that result. -/
theorem read_eq_ok_iff {py : Interpreter} {client : SdkClient} {response : client.Response}
    {call : ProviderResult} :
    client.read py response = .ok call ↔ CleanFinish client response call := by
  obtain ⟨completion, inputTokens, outputTokens⟩ := call
  cases client with
  | openai =>
    simp only [SdkClient.read, bind_eq_ok_iff, openaiCompletion_eq_ok_iff, CleanFinish]
    constructor
    · rintro ⟨text, ⟨choice, rest, hChoices, hStop, hContent⟩, usage, hUsage, hCall⟩
      cases hCall
      cases hOwn : response.usage with
      | none =>
        rw [hOwn] at hUsage
        cases hUsage
      | some own =>
        rw [hOwn] at hUsage
        cases hUsage
        exact ⟨choice, rest, own, hChoices, hStop, hContent, rfl, rfl, rfl⟩
    · rintro ⟨choice, rest, own, hChoices, hStop, hContent, hUsage, rfl, rfl⟩
      exact ⟨completion, ⟨choice, rest, hChoices, hStop, hContent⟩,
        (own.promptTokens, own.completionTokens), by rw [hUsage]; rfl, rfl⟩
  | anthropic =>
    simp only [SdkClient.read, bind_eq_ok_iff, anthropicCompletion_eq_ok_iff, firstText_eq_some_iff,
      CleanFinish]
    constructor
    · rintro ⟨text, ⟨hStop, hText⟩, hCall⟩
      cases hCall
      exact ⟨hStop, hText, rfl, rfl⟩
    · rintro ⟨hStop, hText, rfl, rfl⟩
      exact ⟨completion, ⟨hStop, hText⟩, rfl⟩

/-! ### What the adapters themselves raise -/

/-- Whatever is raised here, the worker does not try again. -/
def FailsForGood {α : Type} (x : Except ProviderError α) : Prop :=
  ∀ e, x = .error e → isRetryable e = false

theorem failsForGood_ok {α : Type} (a : α) : FailsForGood (.ok a : Except ProviderError α) := by
  intro e h
  cases h

theorem failsForGood_named {α : Type} {typeName : Text} (text : Text)
    (h : retryableExcNames.contains typeName = false) :
    FailsForGood (.error ⟨typeName, false, none, text⟩ : Except ProviderError α) := by
  intro e hError
  cases hError
  simp only [isRetryable, Bool.false_eq_true, if_false]
  exact h

theorem failsForGood_valueError {α : Type} (text : Text) :
    FailsForGood (.error (valueError text) : Except ProviderError α) :=
  failsForGood_named text (by decide)

theorem FailsForGood.bind {α β : Type} {x : Except ProviderError α}
    {f : α → Except ProviderError β} (h : FailsForGood x) (hf : ∀ a, FailsForGood (f a)) :
    FailsForGood (x >>= f) := by
  cases x with
  | ok a => exact hf a
  | error e => exact fun e' hError => h e' (by cases hError; rfl)

theorem openaiCompletion_failsForGood (py : Interpreter) (response : ChatCompletion) :
    FailsForGood (openaiCompletion py response) := by
  unfold openaiCompletion
  split
  · exact failsForGood_named _ (by decide)
  · split
    · exact failsForGood_valueError _
    · split
      · exact failsForGood_valueError _
      · exact failsForGood_ok _

theorem usageFromOpenai_failsForGood (usage : Option OpenaiUsage) :
    FailsForGood (usageFromOpenai usage) := by
  cases usage with
  | none => exact failsForGood_named _ (by decide)
  | some usage => exact failsForGood_ok _

theorem anthropicCompletion_failsForGood (py : Interpreter) (response : AnthropicMessage) :
    FailsForGood (anthropicCompletion py response) := by
  unfold anthropicCompletion
  split
  · exact failsForGood_valueError _
  · split
    · exact failsForGood_valueError _
    · exact failsForGood_ok _

theorem anthropicTemperature_failsForGood (py : Interpreter) (model : Text) (params : JobParams) :
    FailsForGood (anthropicTemperature py model params) := by
  unfold anthropicTemperature
  split
  · exact failsForGood_ok _
  · split
    · exact failsForGood_valueError _
    · split
      · exact failsForGood_valueError _
      · exact failsForGood_ok _

/-- A response that cannot be used is never asked for again. -/
theorem read_failsForGood (py : Interpreter) (client : SdkClient) (response : client.Response) :
    FailsForGood (client.read py response) := by
  cases client with
  | openai =>
    exact (openaiCompletion_failsForGood py response).bind fun completion =>
      (usageFromOpenai_failsForGood response.usage).bind fun usage => failsForGood_ok _
  | anthropic =>
    exact (anthropicCompletion_failsForGood py response).bind fun completion => failsForGood_ok _

/-- Nor is a request that could not be built. -/
theorem request_failsForGood (py : Interpreter) (client : SdkClient) (model : Text)
    (messages : List Message) (params : JobParams) :
    FailsForGood (client.request py model messages params) := by
  cases client with
  | openai =>
    simp only [SdkClient.request, openaiRequest]
    split
    · exact failsForGood_valueError _
    · exact failsForGood_ok _
  | anthropic =>
    simp only [SdkClient.request, anthropicRequest]
    split
    · exact failsForGood_valueError _
    · exact (anthropicTemperature_failsForGood py model params).bind fun temperature =>
        failsForGood_ok _

end LlmBus

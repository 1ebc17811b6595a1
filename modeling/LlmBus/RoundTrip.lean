import LlmBus.Wire

/-! # What survives the wire

Encoding and decoding give the job back exactly where every string is valid Unicode, the
temperature, the one float without a bound, is finite, and the library's limits on what it
writes and reads are kept. Three fields survive in every message that decodes at all.
-/

namespace LlmBus

open Foundation

/-! ### Free-form values -/

mutual

/-- A value JSON can hold as it is: finite numbers, and each key of a dict once. -/
def Value.finiteJson : Value → Bool
  | .float x => x.isFinite
  | .list items => Value.finiteJsonList items
  | .dict entries => decide (entries.map Prod.fst).Nodup && Value.finiteJsonEntries entries
  | .object _ => false
  | _ => true

def Value.finiteJsonList : List Value → Bool
  | [] => true
  | v :: rest => v.finiteJson && Value.finiteJsonList rest

def Value.finiteJsonEntries : Entries → Bool
  | [] => true
  | (_, v) :: rest => v.finiteJson && Value.finiteJsonEntries rest

end

mutual

def Value.surrogateFree : Value → Bool
  | .str s => Foundation.surrogateFree s
  | .list items => Value.surrogateFreeList items
  | .dict entries => Value.surrogateFreeEntries entries
  | _ => true

def Value.surrogateFreeList : List Value → Bool
  | [] => true
  | v :: rest => v.surrogateFree && Value.surrogateFreeList rest

def Value.surrogateFreeEntries : Entries → Bool
  | [] => true
  | (k, v) :: rest => Foundation.surrogateFree k && v.surrogateFree && Value.surrogateFreeEntries rest

end

theorem any_fst_eq_false {entries : Entries} {k : Text} (h : k ∉ entries.map Prod.fst) :
    (entries.any fun e => e.1 == k) = false := by
  rw [List.any_eq_false]
  intro e he
  simp only [beq_iff_eq]
  rintro rfl
  exact h (List.mem_map_of_mem he)

theorem foldl_insertEntry {pairs entries : Entries} (h : ((entries ++ pairs).map Prod.fst).Nodup) :
    pairs.foldl (fun entries e => insertEntry entries e.1 e.2) entries = entries ++ pairs := by
  induction pairs generalizing entries with
  | nil => simp
  | cons e rest ih =>
    have hNew : e.1 ∉ entries.map Prod.fst := by
      rw [List.map_append, List.nodup_append] at h
      exact fun hMem => h.2.2 _ hMem e.1 (by simp) rfl
    have hInsert : insertEntry entries e.1 e.2 = entries ++ [e] := by
      rw [insertEntry, any_fst_eq_false hNew]
      rfl
    rw [List.foldl_cons, hInsert, ih (by simpa using h), List.append_assoc]
    rfl

theorem dictOf_of_nodup {pairs : Entries} (h : (pairs.map Prod.fst).Nodup) : dictOf pairs = pairs := by
  have hAll : (([] ++ pairs).map Prod.fst).Nodup := h
  exact foldl_insertEntry hAll

theorem floatJson_of_isFinite {x : Double} (h : x.isFinite = true) : floatJson x = .float x := by
  rw [floatJson, if_pos h]

mutual

/-- A finite value has a JSON form that reads back as the value. -/
theorem Value.exists_toJson : ∀ v : Value, v.finiteJson = true →
    ∃ j, v.toJson = some j ∧ .ofJson j = v
  | .null, _ => ⟨.null, rfl, rfl⟩
  | .bool b, _ => ⟨.bool b, rfl, rfl⟩
  | .int n, _ => ⟨.int n, rfl, rfl⟩
  | .float x, h => by
    refine ⟨.float x, ?_, rfl⟩
    rw [Value.toJson, floatJson_of_isFinite h]
  | .str s, _ => ⟨.str s, rfl, rfl⟩
  | .list items, h => by
    obtain ⟨js, hJson, hRead⟩ := Value.exists_toJsonList items h
    refine ⟨.arr js, ?_, ?_⟩
    · rw [Value.toJson, hJson]
      rfl
    · rw [Value.ofJson, hRead]
  | .dict entries, h => by
    simp only [Value.finiteJson, Bool.and_eq_true, decide_eq_true_eq] at h
    obtain ⟨js, hJson, hRead⟩ := Value.exists_toJsonEntries entries h.2
    refine ⟨.obj js, ?_, ?_⟩
    · rw [Value.toJson, hJson]
      rfl
    · rw [Value.ofJson, hRead, dictOf_of_nodup h.1]
  | .object typeName, h => by cases h

theorem Value.exists_toJsonList : ∀ items : List Value, Value.finiteJsonList items = true →
    ∃ js, Value.toJsonList items = some js ∧ Value.ofJsonList js = items
  | [], _ => ⟨[], rfl, rfl⟩
  | v :: rest, h => by
    simp only [Value.finiteJsonList, Bool.and_eq_true] at h
    obtain ⟨j, hJson, hRead⟩ := Value.exists_toJson v h.1
    obtain ⟨js, hJsons, hReads⟩ := Value.exists_toJsonList rest h.2
    refine ⟨j :: js, ?_, ?_⟩
    · rw [Value.toJsonList, hJson, hJsons]
    · rw [Value.ofJsonList, hRead, hReads]

theorem Value.exists_toJsonEntries : ∀ entries : Entries, Value.finiteJsonEntries entries = true →
    ∃ js, Value.toJsonEntries entries = some js ∧ Value.ofJsonEntries js = entries
  | [], _ => ⟨[], rfl, rfl⟩
  | (k, v) :: rest, h => by
    simp only [Value.finiteJsonEntries, Bool.and_eq_true] at h
    obtain ⟨j, hJson, hRead⟩ := Value.exists_toJson v h.1
    obtain ⟨js, hJsons, hReads⟩ := Value.exists_toJsonEntries rest h.2
    refine ⟨(k, j) :: js, ?_, ?_⟩
    · rw [Value.toJsonEntries, hJson, hJsons]
    · rw [Value.ofJsonEntries, hRead, hReads]

end

theorem Value.toJsonList_cons {v : Value} {rest : List Value} {js : List Json}
    (h : Value.toJsonList (v :: rest) = some js) :
    ∃ j others, v.toJson = some j ∧ Value.toJsonList rest = some others ∧ js = j :: others := by
  rw [Value.toJsonList] at h
  split at h
  · rename_i j others hJson hRest
    exact ⟨j, others, hJson, hRest, (Option.some.inj h).symm⟩
  · cases h

theorem Value.toJsonEntries_cons {k : Text} {v : Value} {rest : Entries} {js : JsonEntries}
    (h : Value.toJsonEntries ((k, v) :: rest) = some js) :
    ∃ j others, v.toJson = some j ∧ Value.toJsonEntries rest = some others ∧
      js = (k, j) :: others := by
  rw [Value.toJsonEntries] at h
  split at h
  · rename_i j others hJson hRest
    exact ⟨j, others, hJson, hRest, (Option.some.inj h).symm⟩
  · cases h

theorem floatJson_plain (x : Double) :
    (floatJson x).surrogateFree = true ∧ (floatJson x).depth = 0 := by
  unfold floatJson
  split
  · exact ⟨rfl, rfl⟩
  · exact ⟨rfl, rfl⟩

mutual

/-- A value's JSON holds the value's own strings, nested as they are in it. -/
theorem Value.toJson_alike : ∀ (v : Value) (j : Json), v.toJson = some j →
    j.surrogateFree = v.surrogateFree ∧ j.depth = v.depth
  | .null, _, h => by
    cases h
    exact ⟨rfl, rfl⟩
  | .bool b, _, h => by
    cases h
    exact ⟨rfl, rfl⟩
  | .int n, _, h => by
    cases h
    exact ⟨rfl, rfl⟩
  | .float x, _, h => by
    cases h
    exact floatJson_plain x
  | .str s, _, h => by
    cases h
    exact ⟨rfl, rfl⟩
  | .list items, _, h => by
    obtain ⟨js, hJsons, rfl⟩ := Option.map_eq_some_iff.mp h
    obtain ⟨hText, hDepth⟩ := Value.toJsonList_alike items js hJsons
    exact ⟨hText, congrArg (· + 1) hDepth⟩
  | .dict entries, _, h => by
    obtain ⟨js, hJsons, rfl⟩ := Option.map_eq_some_iff.mp h
    obtain ⟨hText, hDepth⟩ := Value.toJsonEntries_alike entries js hJsons
    exact ⟨hText, congrArg (· + 1) hDepth⟩
  | .object typeName, _, h => by cases h

theorem Value.toJsonList_alike : ∀ (items : List Value) (js : List Json),
    Value.toJsonList items = some js →
      Json.surrogateFreeList js = Value.surrogateFreeList items ∧
        Json.depthList js = Value.depthList items
  | [], _, h => by
    cases h
    exact ⟨rfl, rfl⟩
  | v :: rest, _, h => by
    obtain ⟨j, others, hJson, hRest, rfl⟩ := Value.toJsonList_cons h
    obtain ⟨hText, hDepth⟩ := Value.toJson_alike v j hJson
    obtain ⟨hTexts, hDepths⟩ := Value.toJsonList_alike rest others hRest
    rw [Json.surrogateFreeList, Value.surrogateFreeList, Json.depthList, Value.depthList, hText,
      hTexts, hDepth, hDepths]
    exact ⟨rfl, rfl⟩

theorem Value.toJsonEntries_alike : ∀ (entries : Entries) (js : JsonEntries),
    Value.toJsonEntries entries = some js →
      Json.surrogateFreeEntries js = Value.surrogateFreeEntries entries ∧
        Json.depthEntries js = Value.depthEntries entries
  | [], _, h => by
    cases h
    exact ⟨rfl, rfl⟩
  | (k, v) :: rest, _, h => by
    obtain ⟨j, others, hJson, hRest, rfl⟩ := Value.toJsonEntries_cons h
    obtain ⟨hText, hDepth⟩ := Value.toJson_alike v j hJson
    obtain ⟨hTexts, hDepths⟩ := Value.toJsonEntries_alike rest others hRest
    rw [Json.surrogateFreeEntries, Value.surrogateFreeEntries, Json.depthEntries,
      Value.depthEntries, hText, hTexts, hDepth, hDepths]
    exact ⟨rfl, rfl⟩

end

/-! ### Free-form dicts -/

/-- The top level of `meta` or of a schema: a dict of finite JSON values. -/
def FiniteDict (entries : Entries) : Prop :=
  (Value.dict entries).finiteJson = true

/-- The keys of the dict itself have no lone surrogate. -/
def keysFree (entries : Entries) : Bool :=
  entries.all fun e => Foundation.surrogateFree e.1

/-- Nothing below them has. -/
def valuesFree (entries : Entries) : Bool :=
  entries.all fun e => e.2.surrogateFree

section Dicts

variable {pyd : Pydantic} {entries : Entries} {js : JsonEntries}

/-- The JSON of a dict holds its values' strings, whatever its keys hold. -/
theorem dictJson_alike (h : dictJson pyd entries = some js) :
    Json.surrogateFreeEntries js = valuesFree entries ∧
      Json.depthEntries js = Value.depthEntries entries := by
  obtain ⟨plain, hPlain, rfl⟩ := Option.map_eq_some_iff.mp h
  clear h
  induction entries generalizing plain with
  | nil =>
    cases hPlain
    exact ⟨rfl, rfl⟩
  | cons entry rest ih =>
    obtain ⟨k, v⟩ := entry
    obtain ⟨j, others, hJson, hRest, rfl⟩ := Value.toJsonEntries_cons hPlain
    obtain ⟨hText, hDepth⟩ := Value.toJson_alike v j hJson
    obtain ⟨hTexts, hDepths⟩ := ih others hRest
    simp only [List.map_cons, Json.surrogateFreeEntries, Json.depthEntries, Value.depthEntries,
      pyd.surrogateFree_writeKey, Bool.true_and, hText, hTexts, hDepth, hDepths, valuesFree,
      List.all_cons, and_self]

theorem map_fst_toJsonEntries (h : Value.toJsonEntries entries = some js) :
    js.map Prod.fst = entries.map Prod.fst := by
  induction entries generalizing js with
  | nil =>
    cases h
    rfl
  | cons entry rest ih =>
    obtain ⟨j, others, _, hRest, rfl⟩ := Value.toJsonEntries_cons h
    rw [List.map_cons, List.map_cons, ih hRest]

theorem dictJson_of_keysFree (hKeys : keysFree entries = true) :
    dictJson pyd entries = Value.toJsonEntries entries := by
  unfold dictJson
  cases hPlain : Value.toJsonEntries entries with
  | none => rfl
  | some js =>
    refine congrArg some ((List.map_congr_left fun e hMem => ?_).trans (List.map_id js))
    have hKey : e.1 ∈ entries.map Prod.fst := map_fst_toJsonEntries hPlain ▸ List.mem_map_of_mem hMem
    obtain ⟨entry, hEntry, hSame⟩ := List.mem_map.mp hKey
    have hFree := List.all_eq_true.mp hKeys entry hEntry
    rw [hSame] at hFree
    rw [pyd.writeKey_of_surrogateFree e.1 hFree]
    rfl

theorem FiniteDict.exists_dictJson (h : FiniteDict entries) : ∃ js, dictJson pyd entries = some js := by
  simp only [FiniteDict, Value.finiteJson, Bool.and_eq_true, decide_eq_true_eq] at h
  obtain ⟨js, hJson, _⟩ := Value.exists_toJsonEntries entries h.2
  exact ⟨_, by rw [dictJson, hJson, Option.map_some]⟩

theorem FiniteDict.readDict_dictJson (h : FiniteDict entries) (hKeys : keysFree entries = true)
    (hJson : dictJson pyd entries = some js) : readDict (.obj js) = some entries := by
  simp only [FiniteDict, Value.finiteJson, Bool.and_eq_true, decide_eq_true_eq] at h
  obtain ⟨plain, hPlain, hRead⟩ := Value.exists_toJsonEntries entries h.2
  rw [dictJson_of_keysFree hKeys, hPlain] at hJson
  cases hJson
  rw [readDict, hRead, dictOf_of_nodup h.1]

theorem mem_insertEntry {k : Text} {v : Value} {e : Text × Value} (h : e ∈ insertEntry entries k v) :
    e ∈ entries ∨ e = (k, v) := by
  unfold insertEntry at h
  split at h
  · obtain ⟨before, hBefore, hEq⟩ := List.mem_map.mp h
    split at hEq
    · exact .inr hEq.symm
    · exact .inl (hEq ▸ hBefore)
  · cases List.mem_append.mp h with
    | inl hOld => exact .inl hOld
    | inr hNew => exact .inr (List.mem_singleton.mp hNew)

theorem mem_dictOf {pairs : Entries} {e : Text × Value} (h : e ∈ dictOf pairs) : e ∈ pairs := by
  have hFold : ∀ (pairs entries : Entries),
      e ∈ pairs.foldl (fun entries e => insertEntry entries e.1 e.2) entries → e ∈ entries ∨ e ∈ pairs := by
    intro pairs
    induction pairs with
    | nil => exact fun _ hMem => .inl hMem
    | cons pair rest ih =>
      intro entries hMem
      rcases ih _ hMem with hFirst | hRest
      · rcases mem_insertEntry hFirst with hOld | hNew
        · exact .inl hOld
        · exact .inr (hNew ▸ List.mem_cons_self)
      · exact .inr (List.mem_cons_of_mem _ hRest)
  rcases hFold pairs [] h with hNone | hMem
  · cases hNone
  · exact hMem

theorem map_fst_ofJsonEntries (js : JsonEntries) :
    (Value.ofJsonEntries js).map Prod.fst = js.map Prod.fst := by
  induction js with
  | nil => rfl
  | cons e rest ih => rw [Value.ofJsonEntries, List.map_cons, List.map_cons, ih]

theorem keysFree_of_dictJson (hJson : dictJson pyd entries = some js) :
    keysFree (dictOf (Value.ofJsonEntries js)) = true := by
  obtain ⟨plain, _, rfl⟩ := Option.map_eq_some_iff.mp hJson
  refine List.all_eq_true.mpr fun e hMem => ?_
  have hKey := List.mem_map_of_mem (f := Prod.fst) (mem_dictOf hMem)
  rw [map_fst_ofJsonEntries, List.map_map] at hKey
  obtain ⟨before, _, hSame⟩ := List.mem_map.mp hKey
  rw [← hSame]
  exact pyd.surrogateFree_writeKey before.1

end Dicts

/-! ### Fields of a job -/

theorem nullable_optionalJson {α : Type} {f : α → Json} {read : Json → Option α}
    (hNull : ∀ a, f a ≠ .null) (hRead : ∀ a, read (f a) = some a) (o : Option α) :
    nullable read (some (optionalJson f o)) = some o := by
  cases o with
  | none => rfl
  | some a =>
    have h : nullable read (some (f a)) = (read (f a)).map some := by
      cases hJson : f a with
      | null => exact absurd hJson (hNull a)
      | _ => rfl
    rw [optionalJson, h, hRead]
    rfl

theorem readRole_text (role : Role) : readRole (.str role.text) = some role := by
  cases role with
  | system => decide
  | user => decide
  | assistant => decide

theorem readMessage_toJson (m : Message) : readMessage m.toJson = some m := by
  have hKeys : onlyKeys ["role", "content"]
      [(txt "role", .str m.role.text), (txt "content", .str m.content)] = true := rfl
  have hRole : field [(txt "role", .str m.role.text), (txt "content", .str m.content)] "role" =
      some (.str m.role.text) := rfl
  have hContent : field [(txt "role", .str m.role.text), (txt "content", .str m.content)] "content" =
      some (.str m.content) := rfl
  simp only [readMessage, Message.toJson, hKeys, if_true, hRole, hContent, Option.bind_eq_bind,
    Option.bind_some, readRole_text, readText]

theorem readMessages_map (messages : List Message) :
    readMessages (.arr (messages.map Message.toJson)) = some messages := by
  rw [readMessages]
  induction messages with
  | nil => rfl
  | cons m rest ih =>
    rw [List.map_cons, List.mapM_cons, readMessage_toJson, ih]
    rfl

theorem surrogateFree_messages (messages : List Message) :
    Json.surrogateFreeList (messages.map Message.toJson) =
      messages.all fun m => surrogateFree m.content := by
  induction messages with
  | nil => rfl
  | cons m rest ih =>
    have hMessage : m.toJson.surrogateFree = surrogateFree m.content := by
      have hRole : surrogateFree m.role.text = true := by cases m.role <;> decide
      have hKeys : surrogateFree (txt "role") = true ∧ surrogateFree (txt "content") = true := by decide
      simp [Message.toJson, Json.surrogateFree, Json.surrogateFreeEntries, hRole, hKeys]
    rw [List.map_cons, Json.surrogateFreeList, hMessage, ih, List.all_cons]

/-- The name and the schema below its own keys. -/
def ResponseFormat.valuesFree (format : ResponseFormat) : Bool :=
  Foundation.surrogateFree format.name && LlmBus.valuesFree format.jsonSchema

def formatEntries (format : ResponseFormat) (schema : JsonEntries) : JsonEntries :=
  [(txt "type", .str (txt "json_schema")), (txt "name", .str format.name),
    (txt "schema", .obj schema)]

theorem formatEntries_alike {pyd : Pydantic} {format : ResponseFormat} {schema : JsonEntries}
    (hSchema : dictJson pyd format.jsonSchema = some schema) :
    (Json.obj (formatEntries format schema)).surrogateFree = format.valuesFree ∧
      (Json.obj (formatEntries format schema)).depth =
        (Value.dict format.jsonSchema).depth + 1 := by
  have hKeys : surrogateFree (txt "type") = true ∧ surrogateFree (txt "name") = true ∧
      surrogateFree (txt "schema") = true ∧ surrogateFree (txt "json_schema") = true := by decide
  obtain ⟨hText, hDepth⟩ := dictJson_alike hSchema
  constructor
  · simp [formatEntries, Json.surrogateFree, Json.surrogateFreeEntries, ResponseFormat.valuesFree,
      hKeys, hText]
  · simp [formatEntries, Json.depth, Json.depthEntries, Value.depth, hDepth]

theorem ResponseFormat.toJson_eq_some_iff {pyd : Pydantic} {format : ResponseFormat} {j : Json} :
    format.toJson pyd = some j ↔
      ∃ schema, dictJson pyd format.jsonSchema = some schema ∧ j = .obj (formatEntries format schema) := by
  rw [ResponseFormat.toJson, Option.map_eq_some_iff]
  exact exists_congr fun schema => and_congr_right fun _ => eq_comm

/-- A format's JSON reads back with the schema that is read back for its own. -/
theorem readResponseFormat_formatEntries {format : ResponseFormat} {schema : JsonEntries} :
    readResponseFormat (.obj (formatEntries format schema)) =
      if hSchema : strictObjectSchema (dictOf (Value.ofJsonEntries schema)) = true then
        some ⟨format.name, dictOf (Value.ofJsonEntries schema), format.name_nonempty, hSchema⟩
      else none := by
  have hKeys : onlyKeys ["type", "name", "schema", "json_schema"] (formatEntries format schema) = true :=
    rfl
  have hType : field (formatEntries format schema) "type" = some (.str (txt "json_schema")) := rfl
  have hName : field (formatEntries format schema) "name" = some (.str format.name) := rfl
  have hField : field (formatEntries format schema) "schema" = some (.obj schema) := rfl
  simp only [readResponseFormat, hKeys, if_true, hType, hName, hField, Option.getD_some, Option.some_or,
    readText, readDict, Option.bind_eq_bind, Option.bind_some]
  rw [dif_pos format.name_nonempty]

theorem readMaxTokens_int (pyd : Pydantic) (n : { n : Nat // 0 < n }) :
    readMaxTokens pyd (maxTokensJson n) = some n := by
  have hPos : (0 : ℤ) < (n.val : ℤ) := by exact_mod_cast n.property
  simp only [readMaxTokens, maxTokensJson, pyd.readInt_int, Option.bind_eq_bind, Option.bind_some]
  rw [dif_pos hPos]
  rfl

/-- The parameters as they arrive: a temperature that is not finite is unset. -/
def JobParams.received (params : JobParams) : JobParams :=
  { params with temperature := params.temperature.filter (·.isFinite) }

theorem nullable_temperature (pyd : Pydantic) (temperature : Option Double) :
    nullable pyd.readFloat (some (optionalJson floatJson temperature)) =
      some (temperature.filter (·.isFinite)) := by
  cases temperature with
  | none => rfl
  | some x =>
    cases hFinite : x.isFinite with
    | true =>
      have hFilter : (some x).filter (·.isFinite) = some x := by simp [hFinite]
      rw [optionalJson, floatJson_of_isFinite hFinite, hFilter]
      change (pyd.readFloat (.float x)).map some = _
      rw [pyd.readFloat_float]
      rfl
    | false =>
      have hFilter : (some x).filter (·.isFinite) = none := by simp [hFinite]
      rw [optionalJson, floatJson, hFinite, hFilter]
      rfl

theorem readTtl_float (pyd : Pydantic) (ttl : Ttl) :
    readTtl pyd (ttlJson ttl) = some ttl := by
  simp only [readTtl, ttlJson, pyd.readFloat_float, Option.bind_eq_bind, Option.bind_some]
  rw [dif_pos ⟨ttl.pos, ttl.le_max⟩]

def JobParams.valuesFree (params : JobParams) : Bool :=
  params.responseFormat.all (·.valuesFree)

theorem surrogateFree_optionalJson {α : Type} {f : α → Json} (o : Option α) :
    (optionalJson f o).surrogateFree = o.all fun a => (f a).surrogateFree := by
  cases o with
  | none => rfl
  | some a => rfl

section Params

variable (pyd : Pydantic) (params : JobParams)

def paramsEntries (format : Json) : JsonEntries :=
  [(txt "temperature", optionalJson floatJson params.temperature),
    (txt "max_tokens", optionalJson maxTokensJson params.maxTokens),
    (txt "response_format", format)]

theorem readParams_paramsEntries (format : Json) :
    readParams pyd (.obj (paramsEntries params format)) =
      (nullable readResponseFormat (some format)).map fun responseFormat =>
        { params.received with responseFormat := responseFormat } := by
  have hKeys : onlyKeys ["temperature", "max_tokens", "response_format"]
      (paramsEntries params format) = true := rfl
  have hTemperature : field (paramsEntries params format) "temperature" =
      some (optionalJson floatJson params.temperature) := rfl
  have hMaxTokens : field (paramsEntries params format) "max_tokens" =
      some (optionalJson maxTokensJson params.maxTokens) := rfl
  have hFormat : field (paramsEntries params format) "response_format" = some format := rfl
  have hTokens : nullable (readMaxTokens pyd)
      (some (optionalJson maxTokensJson params.maxTokens)) = some params.maxTokens :=
    nullable_optionalJson (fun _ h => by cases h) (readMaxTokens_int pyd) _
  simp only [readParams, hKeys, if_true, hTemperature, hMaxTokens, hFormat, nullable_temperature,
    hTokens, Option.bind_eq_bind, Option.bind_some]
  cases nullable readResponseFormat (some format) with
  | none => rfl
  | some responseFormat => rfl

theorem surrogateFree_paramsEntries (format : Json) :
    Json.surrogateFreeEntries (paramsEntries params format) = format.surrogateFree := by
  have hKeys : surrogateFree (txt "temperature") = true ∧ surrogateFree (txt "max_tokens") = true ∧
      surrogateFree (txt "response_format") = true := by decide
  have hTemperature : (optionalJson floatJson params.temperature).surrogateFree = true := by
    rw [surrogateFree_optionalJson]
    cases params.temperature with
    | none => rfl
    | some x => exact (floatJson_plain x).1
  have hMaxTokens : (optionalJson maxTokensJson params.maxTokens).surrogateFree = true := by
    rw [surrogateFree_optionalJson]
    cases params.maxTokens with
    | none => rfl
    | some n => rfl
  simp [paramsEntries, Json.surrogateFreeEntries, hKeys, hTemperature, hMaxTokens]

/-- How deep the parameters are nested: a schema stands in its format. -/
def JobParams.depth (params : JobParams) : Nat :=
  (params.responseFormat.elim 0 fun format => (Value.dict format.jsonSchema).depth + 1) + 1

theorem depth_optionalJson {α : Type} {f : α → Json} (hFlat : ∀ a, (f a).depth = 0) (o : Option α) :
    (optionalJson f o).depth = 0 := by
  cases o with
  | none => rfl
  | some a => exact hFlat a

theorem depth_paramsEntries (format : Json) :
    (Json.obj (paramsEntries params format)).depth = format.depth + 1 := by
  have hTemperature := depth_optionalJson (fun x => (floatJson_plain x).2) params.temperature
  have hMaxTokens : (optionalJson maxTokensJson params.maxTokens).depth = 0 :=
    depth_optionalJson (fun _ => rfl) params.maxTokens
  simp [paramsEntries, Json.depth, Json.depthEntries, hTemperature, hMaxTokens]

theorem JobParams.toJson_eq_some_iff {params : JobParams} {j : Json} :
    params.toJson pyd = some j ↔
      (params.responseFormat = none ∧ j = .obj (paramsEntries params .null)) ∨
        ∃ format schema, params.responseFormat = some format ∧
          dictJson pyd format.jsonSchema = some schema ∧
            j = .obj (paramsEntries params (.obj (formatEntries format schema))) := by
  unfold JobParams.toJson
  cases hFormat : params.responseFormat with
  | none =>
    simp only [Option.some.injEq, true_and, reduceCtorEq, false_and, exists_false, or_false]
    exact eq_comm
  | some format =>
    simp only [Option.map_eq_some_iff, ResponseFormat.toJson_eq_some_iff, reduceCtorEq, false_and,
      Option.some.injEq, false_or]
    constructor
    · rintro ⟨_, ⟨schema, hSchema, rfl⟩, rfl⟩
      exact ⟨format, schema, rfl, hSchema, rfl⟩
    · rintro ⟨_, schema, rfl, hSchema, rfl⟩
      exact ⟨_, ⟨schema, hSchema, rfl⟩, rfl⟩

theorem params_alike {j : Json} (hJson : params.toJson pyd = some j) :
    j.surrogateFree = params.valuesFree ∧ j.depth = params.depth := by
  rcases (JobParams.toJson_eq_some_iff pyd).mp hJson with
    ⟨hFormat, rfl⟩ | ⟨format, schema, hFormat, hSchema, rfl⟩
  · rw [JobParams.valuesFree, JobParams.depth, hFormat]
    exact ⟨surrogateFree_paramsEntries params .null, depth_paramsEntries params .null⟩
  · obtain ⟨hText, hDepth⟩ := formatEntries_alike hSchema
    rw [JobParams.valuesFree, JobParams.depth, hFormat]
    exact ⟨(surrogateFree_paramsEntries params _).trans hText,
      (depth_paramsEntries params _).trans (congrArg (· + 1) hDepth)⟩

/-- The keys of the schema have no lone surrogate. -/
def JobParams.keysFree (params : JobParams) : Bool :=
  params.responseFormat.all fun format => LlmBus.keysFree format.jsonSchema

theorem nullable_format {format : ResponseFormat} {schema : JsonEntries} :
    nullable readResponseFormat (some (.obj (formatEntries format schema))) =
      (readResponseFormat (.obj (formatEntries format schema))).map some := rfl

theorem readParams_toJson {j : Json} (hJson : params.toJson pyd = some j)
    (hKeys : params.keysFree = true)
    (h : ∀ format, params.responseFormat = some format → FiniteDict format.jsonSchema) :
    readParams pyd j = some params.received := by
  rcases (JobParams.toJson_eq_some_iff pyd).mp hJson with
    ⟨hFormat, rfl⟩ | ⟨format, schema, hFormat, hSchema, rfl⟩
  · rw [readParams_paramsEntries, JobParams.received, hFormat]
    rfl
  · rw [JobParams.keysFree, hFormat] at hKeys
    have hRead := Option.some.inj ((h format hFormat).readDict_dictJson hKeys hSchema)
    have hStrict : strictObjectSchema (dictOf (Value.ofJsonEntries schema)) = true := by
      rw [hRead]
      exact format.schema_strict
    rw [readParams_paramsEntries, nullable_format, readResponseFormat_formatEntries, dif_pos hStrict,
      JobParams.received, hFormat]
    simp only [hRead]
    rfl

theorem keysFree_of_readParams {j : Json} {received : JobParams} (hJson : params.toJson pyd = some j)
    (hRead : readParams pyd j = some received) : received.keysFree = true := by
  rcases (JobParams.toJson_eq_some_iff pyd).mp hJson with
    ⟨hFormat, rfl⟩ | ⟨format, schema, hFormat, hSchema, rfl⟩
  · rw [readParams_paramsEntries] at hRead
    cases hRead
    rfl
  · rw [readParams_paramsEntries, nullable_format, readResponseFormat_formatEntries] at hRead
    by_cases hStrict : strictObjectSchema (dictOf (Value.ofJsonEntries schema)) = true
    · rw [dif_pos hStrict] at hRead
      cases hRead
      exact keysFree_of_dictJson hSchema
    · rw [dif_neg hStrict] at hRead
      cases hRead

end Params

/-! ### The whole job -/

section Jobs

variable (py : Interpreter) (pyd : Pydantic) (fresh : Fresh) (job : Job)

def jobEntries (params : Json) (metadata : JsonEntries) : JsonEntries :=
  [(txt "job_id", .str job.jobId.text), (txt "project", .str job.project),
    (txt "kind", .str job.kind), (txt "model", optionalJson .str job.model),
    (txt "messages", .arr (job.messages.map Message.toJson)), (txt "params", params),
    (txt "callback_url", optionalJson .str job.callbackUrl), (txt "meta", .obj metadata),
    (txt "submitted_at", .str (pyd.writeDatetime job.submittedAt)),
    (txt "ttl_s", optionalJson ttlJson job.ttlS)]

theorem readJob_jobEntries (params : Json) (metadata : JsonEntries) :
    readJob py pyd fresh (.obj (jobEntries pyd job params metadata)) =
      (readParams pyd params).bind fun params' =>
        (pyd.readDatetime (.str (pyd.writeDatetime job.submittedAt))).bind fun submittedAt =>
          some { job with
            params := params'
            metadata := dictOf (Value.ofJsonEntries metadata)
            submittedAt := submittedAt } := by
  have hKeys : onlyKeys jobFields (jobEntries pyd job params metadata) = true := rfl
  have hJobId : field (jobEntries pyd job params metadata) "job_id" = some (.str job.jobId.text) := rfl
  have hProject : field (jobEntries pyd job params metadata) "project" = some (.str job.project) := rfl
  have hKind : field (jobEntries pyd job params metadata) "kind" = some (.str job.kind) := rfl
  have hModel : field (jobEntries pyd job params metadata) "model" =
      some (optionalJson .str job.model) := rfl
  have hMessages : field (jobEntries pyd job params metadata) "messages" =
      some (.arr (job.messages.map Message.toJson)) := rfl
  have hParams : field (jobEntries pyd job params metadata) "params" = some params := rfl
  have hCallback : field (jobEntries pyd job params metadata) "callback_url" =
      some (optionalJson .str job.callbackUrl) := rfl
  have hMeta : field (jobEntries pyd job params metadata) "meta" = some (.obj metadata) := rfl
  have hSubmitted : field (jobEntries pyd job params metadata) "submitted_at" =
      some (.str (pyd.writeDatetime job.submittedAt)) := rfl
  have hTtl : field (jobEntries pyd job params metadata) "ttl_s" =
      some (optionalJson ttlJson job.ttlS) := rfl
  have hText : ∀ o : Option Text, nullable readText (some (optionalJson .str o)) = some o :=
    nullable_optionalJson (fun _ => nofun) fun _ => rfl
  have hTtlRead : nullable (readTtl pyd)
      (some (optionalJson ttlJson job.ttlS)) = some job.ttlS :=
    nullable_optionalJson (fun _ h => by cases h) (readTtl_float pyd) _
  simp only [readJob, hKeys, if_true, hJobId, hProject, hKind, hModel, hMessages, hParams, hCallback,
    hMeta, hSubmitted, hTtl, defaulted, readJobId, readText, readDict, Option.bind_eq_bind,
    Option.bind_some, Uuid.parse_text, hText, hTtlRead, readMessages_map]

theorem Job.toJson_eq_some_iff {json : Json} :
    job.toJson pyd = some json ↔
      ∃ params metadata, job.params.toJson pyd = some params ∧
        dictJson pyd job.metadata = some metadata ∧
          json = .obj (jobEntries pyd job params metadata) := by
  unfold Job.toJson
  cases job.params.toJson pyd with
  | none => simp
  | some params =>
    cases dictJson pyd job.metadata with
    | none => simp
    | some metadata =>
      simp only [Option.some.injEq]
      constructor
      · rintro rfl
        exact ⟨params, metadata, rfl, rfl, rfl⟩
      · rintro ⟨_, _, rfl, rfl, rfl⟩
        rfl

theorem encodeJob_eq_ok_iff {payload : pyd.Payload} :
    encodeJob pyd job = .ok payload ↔
      ∃ json, job.toJson pyd = some json ∧ json.surrogateFree = true ∧ job.writable pyd = true ∧
        payload = pyd.writeJson json := by
  unfold encodeJob
  cases job.toJson pyd with
  | none => simp
  | some json =>
    simp only [Option.some.injEq, exists_eq_left']
    cases json.surrogateFree with
    | false => simp
    | true =>
      cases job.writable pyd with
      | false => simp
      | true => simp [eq_comm]

/-- A body that the encoder wrote comes in as it went out, unless it is too deep to read. -/
theorem readJson_of_encodeJob {payload : pyd.Payload} (h : encodeJob pyd job = .ok payload) :
    ∃ params metadata, job.params.toJson pyd = some params ∧
      dictJson pyd job.metadata = some metadata ∧
        pyd.readJson payload = if pyd.readable (.obj (jobEntries pyd job params metadata)) then
          some (.obj (jobEntries pyd job params metadata)) else none := by
  obtain ⟨json, hJson, hText, _, rfl⟩ := (encodeJob_eq_ok_iff pyd job).mp h
  obtain ⟨params, metadata, hParams, hMetadata, rfl⟩ := (Job.toJson_eq_some_iff pyd job).mp hJson
  exact ⟨params, metadata, hParams, hMetadata, pyd.readJson_writeJson _ hText⟩

/-- What a body was made of that came in as `job'`, and what was made of it. -/
structure Arrives (job job' : Job) (j : Json) (js : JsonEntries) : Prop where
  params : job.params.toJson pyd = some j
  received : readParams pyd j = some job'.params
  metadata : dictJson pyd job.metadata = some js
  readable : pyd.readable (.obj (jobEntries pyd job j js)) = true
  submittedAt : pyd.readDatetime (.str (pyd.writeDatetime job.submittedAt)) = some job'.submittedAt
  same : job' = { job with
    params := job'.params
    metadata := dictOf (Value.ofJsonEntries js)
    submittedAt := job'.submittedAt }

theorem Arrives.toJson {job' : Job} {params : Json} {metadata : JsonEntries}
    (h : Arrives pyd job job' params metadata) :
    job.toJson pyd = some (.obj (jobEntries pyd job params metadata)) :=
  (Job.toJson_eq_some_iff pyd job).mpr ⟨params, metadata, h.params, h.metadata, rfl⟩

theorem exists_arrives {payload : pyd.Payload} {job' : Job}
    (hEncode : encodeJob pyd job = .ok payload) (hDecode : decodeJob py pyd fresh payload = .ok job') :
    ∃ params metadata, Arrives pyd job job' params metadata := by
  obtain ⟨params, metadata, hParams, hMetadata, hRead⟩ := readJson_of_encodeJob pyd job hEncode
  refine ⟨params, metadata, ?_⟩
  rw [decodeJob, hRead] at hDecode
  cases hReadable : pyd.readable (.obj (jobEntries pyd job params metadata)) with
  | false =>
    rw [hReadable] at hDecode
    cases hDecode
  | true =>
    rw [hReadable, if_pos rfl, Option.bind_some, readJob_jobEntries] at hDecode
    cases hReceived : readParams pyd params with
    | none =>
      rw [hReceived] at hDecode
      cases hDecode
    | some received =>
      cases hTime : pyd.readDatetime (.str (pyd.writeDatetime job.submittedAt)) with
      | none =>
        rw [hReceived, hTime] at hDecode
        cases hDecode
      | some submittedAt =>
        rw [hReceived, hTime] at hDecode
        cases hDecode
        exact ⟨hParams, hReceived, hMetadata, hReadable, hTime, rfl⟩

/-- Whatever the wire does to the rest of a job, these three fields survive it. -/
theorem decodeJob_encodeJob_keeps {payload : pyd.Payload} {job' : Job}
    (hEncode : encodeJob pyd job = .ok payload) (hDecode : decodeJob py pyd fresh payload = .ok job') :
    job'.jobId = job.jobId ∧ job'.model = job.model ∧ job'.submittedAt.date = job.submittedAt.date := by
  obtain ⟨_, _, h⟩ := exists_arrives py pyd fresh job hEncode hDecode
  obtain ⟨t, hLocal, hDate, _⟩ := pyd.readDatetime_local job.submittedAt
  obtain rfl : job'.submittedAt = t := Option.some.inj (h.submittedAt.symm.trans hLocal)
  refine ⟨?_, ?_, hDate⟩
  · rw [h.same]
  · rw [h.same]

/-- What a callback says of `meta` survives where it is a JSON value whose keys are valid Unicode. -/
theorem decodeJob_encodeJob_metadata {payload : pyd.Payload} {job' : Job}
    (hEncode : encodeJob pyd job = .ok payload) (hDecode : decodeJob py pyd fresh payload = .ok job')
    (hMeta : FiniteDict job.metadata) (hKeys : keysFree job.metadata = true) :
    job'.metadata = job.metadata := by
  obtain ⟨_, _, h⟩ := exists_arrives py pyd fresh job hEncode hDecode
  rw [h.same]
  exact Option.some.inj (hMeta.readDict_dictJson hKeys h.metadata)

/-- Whatever becomes of its `meta`, the job asks for a callback or does not. -/
theorem decodeJob_encodeJob_callbackUrl {payload : pyd.Payload} {job' : Job}
    (hEncode : encodeJob pyd job = .ok payload) (hDecode : decodeJob py pyd fresh payload = .ok job') :
    job'.callbackUrl = job.callbackUrl := by
  obtain ⟨_, _, h⟩ := exists_arrives py pyd fresh job hEncode hDecode
  rw [h.same]

/-- Whether a sent job arrives does not depend on what the defaults would have filled in. -/
theorem decodeJob_encodeJob_fresh {payload : pyd.Payload} (hEncode : encodeJob pyd job = .ok payload)
    (fresh' : Fresh) : decodeJob py pyd fresh payload = decodeJob py pyd fresh' payload := by
  obtain ⟨params, metadata, _, _, hRead⟩ := readJson_of_encodeJob pyd job hEncode
  rw [decodeJob, decodeJob, hRead]
  cases pyd.readable (.obj (jobEntries pyd job params metadata)) with
  | false => rfl
  | true => simp only [if_true, Option.bind_some, readJob_jobEntries]

/-- The strings of the job but for the keys of its free-form dicts. -/
def Job.valuesFree (job : Job) : Bool :=
  Foundation.surrogateFree job.project && Foundation.surrogateFree job.kind &&
    job.model.all Foundation.surrogateFree &&
    (job.messages.all fun m => Foundation.surrogateFree m.content) && job.params.valuesFree &&
    job.callbackUrl.all Foundation.surrogateFree && LlmBus.valuesFree job.metadata

/-- The keys of `meta` and of the response schema. -/
def Job.keysFree (job : Job) : Bool :=
  job.params.keysFree && LlmBus.keysFree job.metadata

def Job.surrogateFree (job : Job) : Bool :=
  job.valuesFree && job.keysFree

def Job.depth (job : Job) : Nat :=
  max (if job.messages = [] then 1 else 2) (max job.params.depth (Value.dict job.metadata).depth) + 1

theorem depth_messages (messages : List Message) :
    (Json.arr (messages.map Message.toJson)).depth = if messages = [] then 1 else 2 := by
  have hItems : ∀ (m : Message) (rest : List Message),
      Json.depthList ((m :: rest).map Message.toJson) = 1 := by
    intro m rest
    induction rest generalizing m with
    | nil => rfl
    | cons next rest ih =>
      have hNext := ih next
      rw [List.map_cons, Json.depthList, hNext]
      rfl
  cases messages with
  | nil => rfl
  | cons m rest =>
    rw [Json.depth, hItems]
    rfl

theorem jobEntries_alike {params : Json} {metadata : JsonEntries}
    (hParams : job.params.toJson pyd = some params)
    (hMetadata : dictJson pyd job.metadata = some metadata) :
    (Json.obj (jobEntries pyd job params metadata)).surrogateFree = job.valuesFree ∧
      (Json.obj (jobEntries pyd job params metadata)).depth = job.depth := by
  have hKeys : (jobFields.all fun name => surrogateFree (txt name)) = true := by decide
  simp only [jobFields, List.all_cons, List.all_nil, Bool.and_true, Bool.and_eq_true] at hKeys
  obtain ⟨hKey1, hKey2, hKey3, hKey4, hKey5, hKey6, hKey7, hKey8, hKey9, hKey10⟩ := hKeys
  have hJobId : Foundation.surrogateFree job.jobId.text = true :=
    surrogateFree_of_asciiText (Uuid.asciiText_text job.jobId)
  have hSubmitted : Foundation.surrogateFree (pyd.writeDatetime job.submittedAt) = true :=
    surrogateFree_of_asciiText (pyd.asciiText_writeDatetime job.submittedAt)
  have hOptional : ∀ o : Option Text, (optionalJson .str o).surrogateFree =
      o.all Foundation.surrogateFree := fun o => surrogateFree_optionalJson o
  have hFlat : ∀ o : Option Text, (optionalJson .str o).depth = 0 :=
    depth_optionalJson fun _ => rfl
  have hTtl : (optionalJson ttlJson job.ttlS).surrogateFree = true ∧
      (optionalJson ttlJson job.ttlS).depth = 0 := by
    cases job.ttlS with
    | none => exact ⟨rfl, rfl⟩
    | some ttl => exact ⟨rfl, rfl⟩
  obtain ⟨hParamsText, hParamsDepth⟩ := params_alike pyd job.params hParams
  obtain ⟨hMetaText, hMetaDepth⟩ := dictJson_alike hMetadata
  constructor
  · simp only [jobEntries, Json.surrogateFreeEntries, Json.surrogateFree, hKey1, hKey2, hKey3, hKey4,
      hKey5, hKey6, hKey7, hKey8, hKey9, hKey10, hJobId, hSubmitted, hOptional, hTtl.1, hParamsText,
      hMetaText, surrogateFree_messages, Bool.true_and, Bool.and_true, Job.valuesFree, Bool.and_assoc]
  · have hMeta : (Json.obj metadata).depth = (Value.dict job.metadata).depth :=
      congrArg (· + 1) hMetaDepth
    have hScalar : ∀ s : Text, (Json.str s).depth = 0 := fun _ => rfl
    rw [Json.depth, Job.depth, ← hParamsDepth, ← hMeta, ← depth_messages]
    simp only [jobEntries, Json.depthEntries, hScalar, hFlat, hTtl.2, Nat.max_zero, Nat.zero_max]

/-- The job's JSON is nested no deeper, and has no longer integer, than the library reads. -/
def Job.Readable (pyd : Pydantic) (job : Job) : Prop :=
  ∀ json, job.toJson pyd = some json → pyd.readable json = true

theorem Job.toJson_depth {json : Json} (hJson : job.toJson pyd = some json) : json.depth = job.depth := by
  obtain ⟨params, metadata, hParams, hMetadata, rfl⟩ := (Job.toJson_eq_some_iff pyd job).mp hJson
  exact (jobEntries_alike pyd job hParams hMetadata).2

/-- Its `meta` and its schema stand inside the job. -/
theorem Job.writable_of_depth_le (h : job.depth ≤ pyd.writeLimit) : job.writable pyd = true := by
  unfold Job.depth at h
  have hMeta : (Value.dict job.metadata).depth < pyd.writeLimit := by omega
  rw [Job.writable, pyd.writable_of_lt _ hMeta, Bool.and_true]
  unfold JobParams.depth at h
  cases hFormat : job.params.responseFormat with
  | none => rfl
  | some format =>
    rw [hFormat, Option.elim_some] at h
    exact pyd.writable_of_lt _ (by omega)

theorem Job.readable_of_depth_lt (h : job.depth < pyd.readLimit)
    (hInts : ∀ json, job.toJson pyd = some json → json.intsBelow (10 ^ pyd.intLimit) = true) :
    job.Readable pyd := by
  intro json hJson
  rw [← Job.toJson_depth pyd job hJson] at h
  exact pyd.readable_of_lt json h (hInts json hJson)

/-- A job nested deeper than the library reads goes out and never comes in. -/
theorem decodeJob_ne_ok_of_depth_gt {payload : pyd.Payload} (hEncode : encodeJob pyd job = .ok payload)
    (h : pyd.readLimit < job.depth) (job' : Job) : decodeJob py pyd fresh payload ≠ .ok job' := by
  intro hDecode
  obtain ⟨_, _, hArrives⟩ := exists_arrives py pyd fresh job hEncode hDecode
  rw [← Job.toJson_depth pyd job hArrives.toJson] at h
  cases (pyd.not_readable_of_lt _ h).symm.trans hArrives.readable

def Job.received (job : Job) : Job :=
  { job with params := job.params.received }

/-- What the encoder takes: strings and nesting are as it can write them. -/
theorem exists_encodeJob_iff_of_toJson {json : Json} (hJson : job.toJson pyd = some json) :
    (∃ payload, encodeJob pyd job = .ok payload) ↔
      job.valuesFree = true ∧ job.writable pyd = true := by
  obtain ⟨params, metadata, hParams, hMetadata, rfl⟩ := (Job.toJson_eq_some_iff pyd job).mp hJson
  have hText := (jobEntries_alike pyd job hParams hMetadata).1
  constructor
  · rintro ⟨payload, hPayload⟩
    obtain ⟨json, hSame, hFree, hWritable, _⟩ := (encodeJob_eq_ok_iff pyd job).mp hPayload
    rw [hJson] at hSame
    cases hSame
    exact ⟨hText.symm.trans hFree, hWritable⟩
  · rintro ⟨hFree, hWritable⟩
    exact ⟨_, (encodeJob_eq_ok_iff pyd job).mpr ⟨_, hJson, hText.trans hFree, hWritable, rfl⟩⟩

/-- Whatever arrives as it was went out whole. -/
theorem whole_of_decodeJob {payload : pyd.Payload} (hEncode : encodeJob pyd job = .ok payload)
    (hDecode : decodeJob py pyd fresh payload = .ok job) :
    job.surrogateFree = true ∧ job.writable pyd = true ∧ job.Readable pyd := by
  obtain ⟨params, metadata, h⟩ := exists_arrives py pyd fresh job hEncode hDecode
  obtain ⟨hValues, hWritable⟩ := (exists_encodeJob_iff_of_toJson pyd job h.toJson).mp ⟨payload, hEncode⟩
  have hMetaKeys : keysFree job.metadata = true := by
    rw [congrArg Job.metadata h.same]
    exact keysFree_of_dictJson h.metadata
  refine ⟨?_, hWritable, fun json hJson => ?_⟩
  · rw [Job.surrogateFree, Job.keysFree, hValues, hMetaKeys,
      keysFree_of_readParams pyd job.params h.params h.received]
    rfl
  · rw [h.toJson] at hJson
    cases hJson
    exact h.readable

section Finite

variable (hMeta : FiniteDict job.metadata)
  (hSchema : ∀ format, job.params.responseFormat = some format → FiniteDict format.jsonSchema)

include hMeta hSchema

theorem exists_toJson_of_finite : ∃ json, job.toJson pyd = some json := by
  obtain ⟨metadata, hMetadata⟩ := @FiniteDict.exists_dictJson pyd _ hMeta
  have hParams : ∃ params, job.params.toJson pyd = some params := by
    cases hFormat : job.params.responseFormat with
    | none => exact ⟨_, (JobParams.toJson_eq_some_iff pyd).mpr (.inl ⟨hFormat, rfl⟩)⟩
    | some format =>
      obtain ⟨schema, hJson⟩ := @FiniteDict.exists_dictJson pyd _ (hSchema format hFormat)
      exact ⟨_, (JobParams.toJson_eq_some_iff pyd).mpr (.inr ⟨format, schema, hFormat, hJson, rfl⟩)⟩
  obtain ⟨params, hParams⟩ := hParams
  exact ⟨_, (Job.toJson_eq_some_iff pyd job).mpr ⟨params, metadata, hParams, hMetadata, rfl⟩⟩

/-- What is neither too deep nor changed on the way arrives. -/
theorem decodeJob_encodeJob (hWhole : job.submittedAt.offset.natAbs % microsPerMinute = 0)
    (hText : job.surrogateFree = true) (hWritable : job.writable pyd = true)
    (hReadable : job.Readable pyd) :
    ∃ payload, encodeJob pyd job = .ok payload ∧
      decodeJob py pyd fresh payload = .ok job.received := by
  rw [Job.surrogateFree, Job.keysFree, Bool.and_eq_true, Bool.and_eq_true] at hText
  obtain ⟨hValues, hParamsKeys, hMetaKeys⟩ := hText
  obtain ⟨json, hJson⟩ := exists_toJson_of_finite pyd job hMeta hSchema
  obtain ⟨payload, hEncode⟩ := (exists_encodeJob_iff_of_toJson pyd job hJson).mpr ⟨hValues, hWritable⟩
  obtain ⟨params, metadata, hParams, hMetadata, hRead⟩ := readJson_of_encodeJob pyd job hEncode
  refine ⟨payload, hEncode, ?_⟩
  have hShallow := hReadable _ ((Job.toJson_eq_some_iff pyd job).mpr
    ⟨params, metadata, hParams, hMetadata, rfl⟩)
  have hDict := Option.some.inj (hMeta.readDict_dictJson hMetaKeys hMetadata)
  rw [decodeJob, hRead, if_pos hShallow, Option.bind_some, readJob_jobEntries,
    readParams_toJson pyd job.params hParams hParamsKeys hSchema, pyd.readDatetime_whole _ hWhole]
  simp only [Option.bind_some, hDict]
  rfl

end Finite

end Jobs

theorem received_eq_iff (job : Job) :
    job.received = job ↔ ∀ x, job.params.temperature = some x → x.isFinite = true := by
  obtain ⟨_, _, _, _, _, ⟨temperature, _, _⟩, _, _, _, _⟩ := job
  simp only [Job.received, JobParams.received, Job.mk.injEq, JobParams.mk.injEq, and_true, true_and]
  cases temperature with
  | none => simp
  | some x =>
    cases hFinite : x.isFinite with
    | true => simp [hFinite]
    | false => simp [hFinite]

/-- The wire gives the job back exactly where its strings are valid Unicode, its temperature, if it
has one, is finite, and it keeps the library's limits on what it writes and what it reads. -/
theorem wire_lossless_iff (py : Interpreter) (pyd : Pydantic) (fresh : Fresh) (job : Job)
    (hWhole : job.submittedAt.offset.natAbs % microsPerMinute = 0) (hMeta : FiniteDict job.metadata)
    (hSchema : ∀ format, job.params.responseFormat = some format → FiniteDict format.jsonSchema) :
    (∃ payload, encodeJob pyd job = .ok payload ∧ decodeJob py pyd fresh payload = .ok job) ↔
      job.surrogateFree = true ∧ (∀ x, job.params.temperature = some x → x.isFinite = true) ∧
        job.writable pyd = true ∧ job.Readable pyd := by
  rw [← received_eq_iff]
  constructor
  · rintro ⟨payload, hEncode, hDecode⟩
    obtain ⟨hText, hWritable, hReadable⟩ := whole_of_decodeJob py pyd fresh job hEncode hDecode
    obtain ⟨sent, hSent, hReceived⟩ := decodeJob_encodeJob py pyd fresh job hMeta hSchema hWhole hText
      hWritable hReadable
    rw [hEncode] at hSent
    cases hSent
    rw [hDecode] at hReceived
    exact ⟨hText, (Except.ok.inj hReceived).symm, hWritable, hReadable⟩
  · rintro ⟨hText, hFinite, hWritable, hReadable⟩
    obtain ⟨payload, hEncode, hDecode⟩ := decodeJob_encodeJob py pyd fresh job hMeta hSchema hWhole hText
      hWritable hReadable
    rw [hFinite] at hDecode
    exact ⟨payload, hEncode, hDecode⟩

def replaceSurrogates (k : Text) : Text :=
  k.map fun c => if isSurrogate c then 0xFFFD else c

theorem replaceSurrogates_of_surrogateFree {k : Text} (h : surrogateFree k = true) :
    replaceSurrogates k = k := by
  induction k with
  | nil => rfl
  | cons c rest ih =>
    simp only [surrogateFree_cons, Bool.and_eq_true, Bool.not_eq_true'] at h
    have hRest := ih h.2
    unfold replaceSurrogates at hRest ⊢
    rw [List.map_cons, hRest, h.1]
    rfl

theorem surrogateFree_replaceSurrogates (k : Text) : surrogateFree (replaceSurrogates k) = true := by
  refine List.all_eq_true.mpr fun c hMem => ?_
  obtain ⟨before, _, rfl⟩ := List.mem_map.mp hMem
  cases hCode : isSurrogate before with
  | false => simp [hCode]
  | true =>
    simp only [if_true]
    decide

/-- The library with the JSON tree itself as the payload, and the limits of the current release. -/
def Pydantic.tree : Pydantic where
  Payload := Json
  writeLimit := 255
  writable entries := decide ((Value.dict entries).depth < 255)
  writable_of_lt _ h := decide_eq_true h
  not_writable_of_lt _ h := decide_eq_false (Nat.lt_asymm h)
  writeKey := replaceSurrogates
  writeKey_of_surrogateFree _ := replaceSurrogates_of_surrogateFree
  surrogateFree_writeKey := surrogateFree_replaceSurrogates
  writeJson := id
  readJson j := if decide (j.depth < 200) = true then some j else none
  readLimit := 200
  intLimit := 4300
  readable j := decide (j.depth < 200)
  readable_of_lt _ h _ := decide_eq_true h
  not_readable_of_lt _ h := decide_eq_false (Nat.lt_asymm h)
  readJson_writeJson _ _ := rfl
  writeDatetime := Timestamp.write
  readDatetime
    | .str s => Timestamp.read s
    | _ => none
  asciiText_writeDatetime := Timestamp.asciiText_write
  readDatetime_whole t h := (Timestamp.read_write t).trans (by rw [Timestamp.truncate_of_whole h])
  readDatetime_local t := ⟨Timestamp.truncate t, Timestamp.read_write t, rfl, rfl⟩
  readFloat
    | .float x => some x
    | .int n => some (.finite n)
    | _ => none
  readFloat_float _ := rfl
  readInt
    | .int n => some n
    | _ => none
  readInt_int _ := rfl

def anyFresh : Fresh :=
  ⟨⟨1⟩, .startOf newYear2026⟩

def nestedLists : Nat → Value
  | 0 => .null
  | n + 1 => .list [nestedLists n]

/-- What the library still writes it does not read any more. -/
example (payload : Json) (job' : Job)
    (h : encodeJob .tree { plainJob with metadata := [(txt "deep", nestedLists 220)] } = .ok payload) :
    decodeJob .ascii .tree anyFresh payload ≠ .ok job' :=
  decodeJob_ne_ok_of_depth_gt .ascii .tree anyFresh _ h (by decide +kernel) job'

def answerFormat : ResponseFormat where
  name := txt "answer"
  jsonSchema := [(txt "type", .str (txt "object")), (txt "additionalProperties", .bool false),
    (txt "properties", .dict [(txt "verdict", .dict [(txt "type", .str (txt "string"))])])]
  name_nonempty := by decide
  schema_strict := by decide

/-- A job that leaves nothing unset. -/
def fullJob : Job :=
  { plainJob with
    messages := [⟨.system, txt "Be brief."⟩, ⟨.user, txt "hello"⟩]
    params := ⟨some (.finite (1 / 2)), some ⟨256, by decide⟩, some answerFormat⟩
    callbackUrl := some (txt "http://localhost/done")
    metadata := [(txt "page", .int 3), (txt "notes", .list [.str [0x1F600], .null, .dict
      [(txt "score", .float (.finite (-3 / 4))), (txt "tags", .list [.bool true, .list []])]])]
    submittedAt := ⟨newYear2026, 43200000001, 330 * microsPerMinute, by decide, by decide⟩
    ttlS := some ⟨90, by norm_num, by norm_num [maxTtlS]⟩ }

theorem wire_lossless_iff_full :
    ∃ payload, encodeJob .tree fullJob = .ok payload ∧
      decodeJob .ascii .tree anyFresh payload = .ok fullJob := by
  have hInts : ∀ json, fullJob.toJson .tree = some json →
      json.intsBelow (10 ^ Pydantic.tree.intLimit) = true := by
    rintro _ ⟨⟩
    decide +kernel
  have hFinite : ∀ x, fullJob.params.temperature = some x → x.isFinite = true := by
    rintro _ ⟨⟩
    rfl
  exact (wire_lossless_iff .ascii .tree anyFresh fullJob (by decide) rfl fun _ h => (by cases h; rfl)).mpr
    ⟨by decide, hFinite, Job.writable_of_depth_le .tree fullJob (by decide),
      Job.readable_of_depth_lt .tree fullJob (by decide) hInts⟩

def infiniteTemperature : Job :=
  { plainJob with params := ⟨some .posInf, none, none⟩ }

/-- An infinite temperature goes out as null and comes in as unset. -/
theorem wire_loses_infinite_temperature :
    ¬ ∃ payload, encodeJob .tree infiniteTemperature = .ok payload ∧
      decodeJob .ascii .tree anyFresh payload = .ok infiniteTemperature := by
  rintro ⟨payload, hEncode, hDecode⟩
  have hReadable : infiniteTemperature.Readable .tree := by
    rintro _ ⟨⟩
    decide
  obtain ⟨sent, hSent, hReceived⟩ := decodeJob_encodeJob .ascii .tree anyFresh infiniteTemperature rfl
    (fun _ h => by cases h) (by decide) (by decide) (by decide) hReadable
  cases hEncode.symm.trans hSent
  rw [hReceived] at hDecode
  have hTemperature := congrArg (fun job : Job => job.params.temperature) (Except.ok.inj hDecode)
  cases hTemperature

end LlmBus

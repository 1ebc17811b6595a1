import LlmBus.Foundation.Forms
import LlmBus.PolicyPage
import LlmBus.Server
import LlmBus.StoreFailures

/-! # Saving a row nobody touched

The form of a policy row, read from the markup of the page as a browser reads it, sent as it
stands and parsed by the server.
-/

namespace LlmBus

open Foundation Foundation.Markup Foundation.Forms

/-! ### The tags of a row -/

def bareTag (name : String) : Tag :=
  ⟨[], txt name⟩

def formTag : Tag :=
  ⟨[⟨txt "form method=", .double, txt "post"⟩, ⟨txt " action=", .double, txt "/policy"⟩], []⟩

def hiddenTag (name : String) (value : Text) : Tag :=
  ⟨[⟨txt "input type=", .double, txt "hidden"⟩, ⟨txt " name=", .double, txt name⟩,
    ⟨txt " value=", .double, escape value⟩], []⟩

def selectTag : Tag :=
  ⟨[⟨txt "select name=", .double, txt "model"⟩], []⟩

def optionTag (selected : Option Text) (model : Text) : Tag :=
  ⟨[⟨txt "option value=", .double, escape model⟩],
    if some model = selected then txt " selected" else []⟩

def groupTag (capability : Capability) : Tag :=
  ⟨[⟨txt "optgroup label=", .double, escape capability.text⟩], []⟩

theorem tags_modelOption (selected : Option Text) (model : Text) :
    Html.tags .text (modelOption selected model) = [optionTag selected model, bareTag "/option"] := by
  unfold modelOption optionTag
  split
  · rfl
  · rfl

theorem tags_optionGroup (selected : Option Text) (capability : Capability) :
    Html.tags .text (optionGroup selected capability) =
      if (modelsWithCapability capability).isEmpty then []
      else groupTag capability :: (modelsWithCapability capability).flatMap
        (fun model => [optionTag selected model, bareTag "/option"]) ++ [bareTag "/optgroup"] := by
  simp only [optionGroup]
  split
  · rfl
  · have hHead : Html.Block [lit "<optgroup label=\"", escaped capability.text, lit "\">"] := by
      refine ⟨?_, by simp⟩
      rw [Html.scan_lit, Html.scan_escaped, Html.scan_lit]
      rfl
    have hOptions : Html.tags .text ((modelsWithCapability capability).flatMap (modelOption selected)) =
        (modelsWithCapability capability).flatMap
          fun model => [optionTag selected model, bareTag "/option"] := by
      rw [Html.tags_flatMap fun model _ => modelOption_block selected model]
      exact List.flatMap_congr fun model _ => tags_modelOption selected model
    rw [Html.tags_append (hHead.append (Html.Block.flatMap fun model _ =>
      modelOption_block selected model)).closed, Html.tags_append hHead.closed, hOptions]
    rfl

set_option maxRecDepth 4000 in
theorem tags_rowHead (policy : ModelPolicy) : Html.tags .text (rowHead policy) =
    [bareTag "tr", bareTag "td", bareTag "/td", bareTag "td", bareTag "/td", bareTag "td", formTag,
      hiddenTag "project" policy.project, hiddenTag "kind" policy.kind, selectTag] := by
  rw [rowHead]
  repeat first | rw [Html.tags_lit] | rw [Html.tags_escaped]
  rfl

set_option maxRecDepth 4000 in
theorem tags_rowFoot (policy : ModelPolicy) : Html.tags .text (rowFoot policy) =
    [bareTag "/select", ⟨[⟨txt "button type=", .double, txt "submit"⟩], []⟩, bareTag "/button",
      bareTag "/form", bareTag "/td", ⟨[⟨txt "td class=", .double, txt "stamp"⟩], []⟩,
      bareTag "/td", bareTag "/tr"] := by
  rw [rowFoot]
  repeat first | rw [Html.tags_lit] | rw [Html.tags_escaped]
  rfl

/-! ### The options of a row -/

/-- The models of the drop-down list, in its order. -/
def offeredModels : List Text :=
  capabilityOrder.flatMap modelsWithCapability

theorem mem_offeredModels_iff {model : Text} : model ∈ offeredModels ↔ registered model = true := by
  constructor
  · intro h
    obtain ⟨capability, _, hModel⟩ := List.mem_flatMap.mp h
    exact registered_of_mem hModel
  · intro h
    obtain ⟨capability, hLookup⟩ := Option.isSome_iff_exists.mp h
    refine List.mem_flatMap.mpr ⟨capability, ?_, ?_⟩
    · cases capability with
      | chat => decide
      | transcription => decide
      | embedding => decide
    · refine Grouping.mem_sortOn.mpr (List.mem_map.mpr ⟨(model, capability), ?_, rfl⟩)
      exact List.mem_filter.mpr ⟨mem_of_lookup hLookup, decide_eq_true rfl⟩

/-- What the select of a row sends: the model of the row where it is offered, else the first. -/
def sentModel (model : Text) : Text :=
  if registered model then model else offeredModels.headD []

theorem registered_sentModel (model : Text) : registered (sentModel model) = true := by
  unfold sentModel
  split
  · rename_i h
    exact h
  · decide +kernel

section Entries

variable (reader : Reader)

/-- The choice that an option of a row offers. -/
def rowChoice (selected model : Text) : Choice :=
  ⟨model, decide (model = selected), false⟩

theorem optionChoice_optionTag (selected model : Text) :
    optionChoice reader (optionTag (some selected) model) = rowChoice selected model := by
  have hValue : attributeText reader (optionTag (some selected) model) "value" = model :=
    reader.read_escape model
  rw [optionChoice, hValue]
  rcases eq_or_ne model selected with rfl | hNe
  · have hTag : optionTag (some model) model =
        ⟨[⟨txt "option value=", .double, escape model⟩], txt " selected"⟩ := by
      rw [optionTag, if_pos rfl]
    rw [hTag, rowChoice, decide_eq_true rfl]
    rfl
  · have hTag : optionTag (some selected) model =
        ⟨[⟨txt "option value=", .double, escape model⟩], []⟩ := by
      rw [optionTag, if_neg (by simpa using hNe)]
    rw [hTag, rowChoice, decide_eq_false hNe]
    rfl

theorem tagName_optionTag (selected : Option Text) (model : Text) :
    tagName (optionTag selected model) = txt "option" := by
  unfold optionTag
  split
  · rfl
  · rfl

theorem entriesFrom_options (name selected : Text) (models : List Text) (choices : List Choice)
    (rest : List Tag) :
    entriesFrom reader (some (name, choices)) ((models.flatMap fun model =>
        [optionTag (some selected) model, bareTag "/option"]) ++ rest) =
      entriesFrom reader (some (name, choices ++ models.map (rowChoice selected))) rest := by
  induction models generalizing choices with
  | nil => rw [List.flatMap_nil, List.nil_append, List.map_nil, List.append_nil]
  | cons model models ih =>
    have hOther : tagName (optionTag (some selected) model) ≠ txt "/select" := by
      rw [tagName_optionTag]
      decide
    rw [List.flatMap_cons, List.append_assoc, List.cons_append, entriesFrom, if_neg hOther,
      if_pos (tagName_optionTag _ _), optionChoice_optionTag, List.cons_append, entriesFrom,
      if_neg (by decide), if_neg (by decide), List.nil_append, ih, List.map_cons, List.append_assoc,
      List.singleton_append]

theorem entriesFrom_group (name selected : Text) (capability : Capability) (choices : List Choice)
    (rest : List Tag) :
    entriesFrom reader (some (name, choices))
        (Html.tags .text (optionGroup (some selected) capability) ++ rest) =
      entriesFrom reader
        (some (name, choices ++ (modelsWithCapability capability).map (rowChoice selected))) rest := by
  rw [tags_optionGroup]
  split
  · rename_i hEmpty
    rw [List.isEmpty_iff.mp hEmpty, List.map_nil, List.append_nil, List.nil_append]
  · have hName : tagName (groupTag capability) = txt "optgroup" := rfl
    rw [List.append_assoc, List.cons_append, entriesFrom, hName, if_neg (by decide),
      if_neg (by decide), entriesFrom_options, List.cons_append, entriesFrom, if_neg (by decide), if_neg (by decide),
      List.nil_append]

theorem tags_modelOptions (selected : Text) : Html.tags .text (modelOptions (some selected)) =
    capabilityOrder.flatMap fun capability =>
      Html.tags .text (optionGroup (some selected) capability) := by
  rw [modelOptions, if_neg (by simp), List.nil_append,
    Html.tags_flatMap fun capability _ => optionGroup_block (some selected) capability]

theorem entriesFrom_modelOptions (name selected : Text) (rest : List Tag) :
    entriesFrom reader (some (name, []))
        (Html.tags .text (modelOptions (some selected)) ++ rest) =
      entriesFrom reader (some (name, offeredModels.map (rowChoice selected))) rest := by
  have hGroups : ∀ (capabilities : List Capability) (choices : List Choice),
      entriesFrom reader (some (name, choices)) ((capabilities.flatMap fun capability =>
          Html.tags .text (optionGroup (some selected) capability)) ++ rest) =
        entriesFrom reader (some (name, choices ++
          (capabilities.flatMap modelsWithCapability).map (rowChoice selected))) rest := by
    intro capabilities
    induction capabilities with
    | nil =>
      intro choices
      rw [List.flatMap_nil, List.flatMap_nil, List.map_nil, List.append_nil, List.nil_append]
    | cons capability capabilities ih =>
      intro choices
      rw [List.flatMap_cons, List.append_assoc, entriesFrom_group, ih, List.flatMap_cons,
        List.map_append, List.append_assoc]
  rw [tags_modelOptions, hGroups, List.nil_append]
  rfl

/-- A select stands on the model of its row only where the registry has it. -/
theorem selectEntry_rowChoice (name selected : Text) :
    selectEntry name (offeredModels.map (rowChoice selected)) = [(name, sentModel selected)] := by
  have hStanding : ∃ choice, standing (offeredModels.map (rowChoice selected)) = some choice ∧
      choice.value = sentModel selected ∧ choice.disabled = false := by
    unfold standing sentModel
    cases hRegistered : registered selected with
    | true =>
      have hMem : rowChoice selected selected ∈
          (offeredModels.map (rowChoice selected)).filter (·.selected) :=
        List.mem_filter.mpr ⟨List.mem_map_of_mem (mem_offeredModels_iff.mpr hRegistered),
          decide_eq_true rfl⟩
      have hLast := List.getLast?_eq_some_getLast (List.ne_nil_of_mem hMem)
      obtain ⟨hChoice, hSelected⟩ := List.mem_filter.mp (List.mem_of_getLast? hLast)
      obtain ⟨model, _, hModel⟩ := List.mem_map.mp hChoice
      rw [← hModel] at hLast hSelected
      rw [hLast]
      exact ⟨rowChoice selected model, rfl, of_decide_eq_true hSelected, rfl⟩
    | false =>
      have hNone : (offeredModels.map (rowChoice selected)).filter (·.selected) = [] := by
        apply List.filter_eq_nil_iff.mpr
        intro choice hChoice hSelected
        obtain ⟨model, hModel, rfl⟩ := List.mem_map.mp hChoice
        have hSame : model = selected := of_decide_eq_true hSelected
        rw [hSame, mem_offeredModels_iff, hRegistered] at hModel
        cases hModel
      have hFirst : offeredModels ≠ [] := by decide +kernel
      rw [hNone]
      cases hOffered : offeredModels with
      | nil => exact absurd hOffered hFirst
      | cons first others => exact ⟨rowChoice selected first, rfl, rfl, rfl⟩
  obtain ⟨choice, hChoice, hValue, hEnabled⟩ := hStanding
  rw [selectEntry, hChoice]
  simp only [hEnabled, hValue, Bool.false_eq_true, if_false]

/-- The tags between the ends of the form of a row. -/
def innerTags (policy : ModelPolicy) : List Tag :=
  [hiddenTag "project" policy.project, hiddenTag "kind" policy.kind, selectTag] ++
    Html.tags .text (modelOptions (some policy.model)) ++
    [bareTag "/select", ⟨[⟨txt "button type=", .double, txt "submit"⟩], []⟩, bareTag "/button"]

theorem tags_policyRow (policy : ModelPolicy) : Html.tags .text (policyRow policy) =
    [bareTag "tr", bareTag "td", bareTag "/td", bareTag "td", bareTag "/td", bareTag "td", formTag] ++
      (innerTags policy ++ bareTag "/form" ::
        [bareTag "/td", ⟨[⟨txt "td class=", .double, txt "stamp"⟩], []⟩, bareTag "/td",
          bareTag "/tr"]) := by
  rw [policyRow, Html.tags_append ((rowHead_block policy).append (modelOptions_block _)).closed,
    Html.tags_append (rowHead_block policy).closed, tags_rowHead, tags_rowFoot, innerTags]
  simp only [List.append_assoc, List.cons_append, List.nil_append]

theorem inputEntry_hiddenTag {name : String} (hName : plain (txt name) = true) (value : Text) :
    inputEntry reader (hiddenTag name value) = [(txt name, value)] := by
  have hText : attributeText reader (hiddenTag name value) "name" = txt name :=
    reader.read_of_plain hName
  have hValue : attributeText reader (hiddenTag name value) "value" = value :=
    reader.read_escape value
  have hEnabled : ((attribute? (hiddenTag name value) "name").isNone ||
      flag (hiddenTag name value) "disabled") = false := rfl
  rw [inputEntry, hEnabled, hText, hValue]
  rfl

theorem entriesFrom_innerTags (policy : ModelPolicy) :
    entriesFrom reader none (innerTags policy) =
      [(txt "project", policy.project), (txt "kind", policy.kind),
        (txt "model", sentModel policy.model)] := by
  have hProject : tagName (hiddenTag "project" policy.project) = txt "input" := rfl
  have hKind : tagName (hiddenTag "kind" policy.kind) = txt "input" := rfl
  have hModel : attributeText reader selectTag "name" = txt "model" :=
    reader.read_of_plain (by decide : plain (txt "model") = true)
  simp only [innerTags, List.cons_append, List.nil_append]
  rw [entriesFrom, if_pos hProject, inputEntry_hiddenTag reader (by decide), entriesFrom, if_pos hKind,
    inputEntry_hiddenTag reader (by decide), entriesFrom, if_neg (by decide), if_pos (by decide),
    hModel, entriesFrom_modelOptions, entriesFrom, if_pos (by decide), selectEntry_rowChoice,
    entriesFrom, if_neg (by decide), if_neg (by decide), entriesFrom, if_neg (by decide),
    if_neg (by decide)]
  rfl

theorem tagName_innerTags {policy : ModelPolicy} : ∀ t ∈ innerTags policy, tagName t ≠ txt "/form" := by
  have hOptions : ∀ t ∈ Html.tags .text (modelOptions (some policy.model)), tagName t ≠ txt "/form" := by
    intro t ht
    rw [tags_modelOptions] at ht
    obtain ⟨capability, _, ht⟩ := List.mem_flatMap.mp ht
    rw [tags_optionGroup] at ht
    split at ht
    · cases ht
    · rw [List.cons_append, List.mem_cons, List.mem_append, List.mem_singleton, List.mem_flatMap] at ht
      rcases ht with rfl | ⟨model, _, ht⟩ | rfl
      · have hName : tagName (groupTag capability) = txt "optgroup" := rfl
        rw [hName]
        decide
      · rw [List.mem_cons, List.mem_singleton] at ht
        rcases ht with rfl | rfl
        · rw [tagName_optionTag]
          decide
        · decide
      · decide
  have hHidden : ∀ name value, tagName (hiddenTag name value) ≠ txt "/form" := by
    intro name value
    have hName : tagName (hiddenTag name value) = txt "input" := rfl
    rw [hName]
    decide
  intro t ht
  rw [innerTags, List.mem_append, List.mem_append] at ht
  rcases ht with (ht | ht) | ht
  · simp only [List.mem_cons, List.not_mem_nil, or_false] at ht
    rcases ht with rfl | rfl | rfl
    · exact hHidden _ _
    · exact hHidden _ _
    · decide
  · exact hOptions t ht
  · have hFoot : ∀ t ∈ [bareTag "/select", ⟨[⟨txt "button type=", .double, txt "submit"⟩], []⟩,
        bareTag "/button"], tagName t ≠ txt "/form" := by
      decide
    exact hFoot t ht

/-! ### What a browser sends for the rows -/

/-- The fields of the form of a row that nobody touched. -/
def sentFields (policy : ModelPolicy) : List (Text × Text) :=
  [(txt "project", policy.project), (txt "kind", policy.kind), (txt "model", sentModel policy.model)]

theorem formsFrom_policyRow (policy : ModelPolicy) (rest : List Tag) :
    formsFrom none (Html.tags .text (policyRow policy) ++ rest) =
      innerTags policy :: formsFrom none rest := by
  have hBefore : ∀ t ∈ [bareTag "tr", bareTag "td", bareTag "/td", bareTag "td", bareTag "/td",
      bareTag "td"], tagName t ≠ txt "form" := by
    decide
  have hAfter : ∀ t ∈ [bareTag "/td", ⟨[⟨txt "td class=", .double, txt "stamp"⟩], []⟩,
      bareTag "/td", bareTag "/tr"], tagName t ≠ txt "form" := by
    decide
  have hSplit : Html.tags .text (policyRow policy) ++ rest =
      [bareTag "tr", bareTag "td", bareTag "/td", bareTag "td", bareTag "/td", bareTag "td"] ++
        formTag :: (innerTags policy ++ bareTag "/form" ::
          ([bareTag "/td", ⟨[⟨txt "td class=", .double, txt "stamp"⟩], []⟩, bareTag "/td",
            bareTag "/tr"] ++ rest)) := by
    rw [tags_policyRow]
    simp only [List.append_assoc, List.cons_append, List.nil_append]
  rw [hSplit, formsFrom_append_of_outside hBefore, formsFrom, if_pos (by decide),
    formsFrom_append_of_inside tagName_innerTags, formsFrom, if_pos (by decide), List.nil_append,
    formsFrom_append_of_outside hAfter]

theorem untouchedBodies_policyRows (policies : List ModelPolicy) :
    untouchedBodies reader (policyRows policies).text =
      policies.map fun policy => formBody (sentFields policy) := by
  have hForms : formsFrom none (tags (policyRows policies).text) = policies.map innerTags := by
    rw [(policyRows_block policies).tags_text, policyRows,
      Html.tags_flatMap fun policy _ => policyRow_block policy]
    induction policies with
    | nil => rfl
    | cons policy policies ih => rw [List.flatMap_cons, formsFrom_policyRow, ih, List.map_cons]
  rw [untouchedBodies, hForms, List.map_map]
  exact List.map_congr_left fun policy _ => congrArg formBody (entriesFrom_innerTags reader policy)

end Entries

/-! ### What the server makes of it -/

/-- Any text of the registry, which is ASCII and bears no blanks at its ends. -/
theorem registered_text {model : Text} (h : registered model = true) :
    surrogateFree model = true ∧ strip model = model := by
  have hAll : ∀ model ∈ offeredModels, surrogateFree model = true ∧ strip model = model := by
    decide +kernel
  exact hAll model (mem_offeredModels_iff.mpr h)

/-- The row is refused, or names itself. -/
def SavesItself (h : Handler) (policy : ModelPolicy) (body : Text) : Prop :=
  (∃ e, h.parsePolicyForm body = .error e) ∨
    h.parsePolicyForm body = .ok (policy.project, policy.kind, policy.model)

/-- The project or the kind is blank, or both are trimmed and the registry has the model. -/
def Resavable (policy : ModelPolicy) : Prop :=
  strip policy.project = [] ∨ strip policy.kind = [] ∨
    strip policy.project = policy.project ∧ strip policy.kind = policy.kind ∧
      registered policy.model = true

/-- The pair of a row keeps its model, and no other pair is written. -/
structure PairsKept (policy : ModelPolicy) (before after : Database) : Prop where
  model : (after.modelPolicy.find policy.key).map (·.model) = some policy.model
  others : ∀ key, key ≠ policy.key → after.modelPolicy.find key = before.modelPolicy.find key

section Saving

variable (h : Handler) {policy : ModelPolicy}

theorem parsePolicyForm_sentFields (hProject : surrogateFree policy.project = true)
    (hKind : surrogateFree policy.kind = true) {project kind model : Text} :
    h.parsePolicyForm (formBody (sentFields policy)) = .ok (project, kind, model) ↔
      (strip policy.project = project ∧ project ≠ []) ∧ (strip policy.kind = kind ∧ kind ≠ []) ∧
        sentModel policy.model = model := by
  have hSent := registered_text (registered_sentModel policy.model)
  have hFree : ∀ pair ∈ sentFields policy, PairSurrogateFree pair := by
    intro pair hPair
    simp only [sentFields, List.mem_cons, List.not_mem_nil, or_false] at hPair
    rcases hPair with rfl | rfl | rfl
    · exact ⟨(by decide : surrogateFree (txt "project") = true), hProject⟩
    · exact ⟨(by decide : surrogateFree (txt "kind") = true), hKind⟩
    · exact ⟨(by decide : surrogateFree (txt "model") = true), hSent.1⟩
  have hFirst : FormData.firstValue (formBody (sentFields policy)) (txt "project") = policy.project :=
    (firstValue_formBody hFree _).trans rfl
  have hSecond : FormData.firstValue (formBody (sentFields policy)) (txt "kind") = policy.kind :=
    (firstValue_formBody hFree _).trans rfl
  have hThird : FormData.firstValue (formBody (sentFields policy)) (txt "model") =
      sentModel policy.model :=
    (firstValue_formBody hFree _).trans rfl
  rw [h.parsePolicyForm_eq_ok_iff, hFirst, hSecond, hThird, hSent.2]
  constructor
  · rintro ⟨hP, hK, ⟨hM, _⟩, _⟩
    exact ⟨hP, hK, hM⟩
  · rintro ⟨hP, hK, rfl⟩
    have hRegistered := registered_sentModel policy.model
    exact ⟨hP, hK, ⟨rfl, Handler.model_ne_nil_of_registered hRegistered⟩, hRegistered⟩

theorem savesItself_iff (hProject : surrogateFree policy.project = true)
    (hKind : surrogateFree policy.kind = true) :
    SavesItself h policy (formBody (sentFields policy)) ↔ Resavable policy := by
  have hParsed := @parsePolicyForm_sentFields h policy hProject hKind
  have hKept : sentModel policy.model = policy.model ↔ registered policy.model = true := by
    constructor
    · exact fun hSame => hSame ▸ registered_sentModel policy.model
    · exact fun hRegistered => if_pos hRegistered
  cases hForm : h.parsePolicyForm (formBody (sentFields policy)) with
  | error e =>
    apply iff_of_true (.inl ⟨e, hForm⟩)
    rcases eq_or_ne (strip policy.project) [] with hBlank | hProject
    · exact .inl hBlank
    rcases eq_or_ne (strip policy.kind) [] with hBlank | hKind
    · exact .inr (.inl hBlank)
    rw [hParsed.mpr ⟨⟨rfl, hProject⟩, ⟨rfl, hKind⟩, rfl⟩] at hForm
    cases hForm
  | ok fields =>
    obtain ⟨project, kind, model⟩ := fields
    obtain ⟨⟨rfl, hProject⟩, ⟨rfl, hKind⟩, rfl⟩ := hParsed.mp hForm
    constructor
    · rintro (⟨e, hError⟩ | hOwn)
      · rw [hForm] at hError
        cases hError
      · rw [hForm, Except.ok.injEq, Prod.mk.injEq, Prod.mk.injEq] at hOwn
        exact .inr (.inr ⟨hOwn.1, hOwn.2.1, hKept.mp hOwn.2.2⟩)
    · rintro (hBlank | hBlank | ⟨hSame, hSame', hRegistered⟩)
      · exact absurd hBlank hProject
      · exact absurd hBlank hKind
      · refine .inr ?_
        rw [hForm, hSame, hSame', hKept.mpr hRegistered]

/-- What saves itself changes no pair, whether or not the store takes the write. -/
theorem pairsKept_of_savesItself {body : Text} (hBody : asciiText body = true)
    (hSaves : SavesItself h policy body) {db : Database}
    (hHeld : db.modelPolicy.find policy.key = some policy) :
    PairsKept policy db (h.submitForm db (Utf8.encode body)).2 := by
  have hSame : ∀ {after : Database}, after.modelPolicy = db.modelPolicy → PairsKept policy db after := by
    intro after hEq
    exact ⟨by rw [hEq, hHeld]; rfl, fun key _ => by rw [hEq]⟩
  unfold Handler.submitForm
  rw [Utf8.decodeReplace_encode (surrogateFree_of_asciiText hBody)]
  rcases hSaves with ⟨e, hError⟩ | hOwn
  · rw [hError]
    exact hSame rfl
  · rw [hOwn]
    cases hWrite : h.writePolicy db policy.project policy.kind policy.model with
    | mk result after =>
      cases result with
      | error e =>
        have hUntouched := (h.writePolicy_keeps db policy.project policy.kind policy.model).2.2
        rw [hWrite] at hUntouched
        simp only [hWrite]
        exact hSame (hUntouched (by simp))
      | ok done =>
        have hSet := @Handler.writePolicy_sets h db policy.project policy.kind policy.model
          (by rw [hWrite])
        rw [hWrite] at hSet
        simp only [hWrite]
        exact ⟨congrArg (Option.map (·.model)) hSet.1, hSet.2⟩

/-- Every row the store can hold, as its form stands on the page: a browser sends one body for
it, which the server refuses or reads as the row itself exactly where the row is resavable, and
then no pair changes. -/
theorem untouched_row_saves_itself_iff (reader : Reader) {policies : List ModelPolicy}
    (hStored : ∀ policy ∈ policies, ∃ db out, upsertModelPolicy policy db = .ok out) :
    ∃ bodies, untouchedBodies reader (policyRows policies).text = bodies ∧
      List.Forall₂ (fun policy body =>
        (SavesItself h policy body ↔ Resavable policy) ∧
          (Resavable policy → ∀ db : Database, db.modelPolicy.find policy.key = some policy →
            PairsKept policy db (h.submitForm db (Utf8.encode body)).2)) policies bodies := by
  refine ⟨_, untouchedBodies_policyRows reader policies, ?_⟩
  rw [List.forall₂_map_right_iff, List.forall₂_same]
  intro policy hPolicy
  obtain ⟨db, hOut⟩ := hStored policy hPolicy
  obtain ⟨hProject, hKind, _⟩ := upsertModelPolicy_succeeds_iff.mp hOut
  have hIff := @savesItself_iff h policy hProject hKind
  exact ⟨hIff, fun hResavable _ hHeld =>
    pairsKept_of_savesItself h (asciiText_formBody _) (hIff.mpr hResavable) hHeld⟩

end Saving

/-! ### A row of each kind -/

/-- A pair that runs on a model of this name. -/
def demoPolicy (model : Text) : ModelPolicy :=
  ⟨txt "demo", txt "chat", model, .startOf newYear2026⟩

def plainHandler : Handler :=
  ⟨.ascii, some (txt "s"), .startOf newYear2026, none⟩

theorem untouched_row_saves_itself_registered :
    ∃ body, untouchedBodies entityReader (policyRows [demoPolicy (txt "gpt-5")]).text = [body] ∧
      SavesItself plainHandler (demoPolicy (txt "gpt-5")) body := by
  have hStored : ∀ policy ∈ [demoPolicy (txt "gpt-5")], ∃ db out, upsertModelPolicy policy db = .ok out := by
    intro policy hPolicy
    rw [List.mem_singleton.mp hPolicy]
    exact ⟨.empty, upsertModelPolicy_succeeds_iff.mpr (by decide)⟩
  obtain ⟨bodies, hBodies, hRows⟩ := untouched_row_saves_itself_iff plainHandler entityReader hStored
  rcases List.forall₂_cons_left_iff.mp hRows with ⟨body, rest, hRow, hRest, rfl⟩
  cases hRest
  refine ⟨body, hBodies, hRow.1.mpr (.inr (.inr ⟨by decide, by decide, by decide +kernel⟩))⟩

/-- A model the registry no longer has: the form names the first model of the list instead. -/
theorem untouched_row_repoints : ¬ ∀ (h : Handler) (reader : Reader) (policies : List ModelPolicy),
    (∀ policy ∈ policies, ∃ db out, upsertModelPolicy policy db = .ok out) →
      List.Forall₂ (SavesItself h) policies (untouchedBodies reader (policyRows policies).text) := by
  intro hAll
  have hSaves := hAll plainHandler entityReader [demoPolicy (txt "gpt-4o")] fun policy hPolicy => by
    rw [List.mem_singleton.mp hPolicy]
    exact ⟨.empty, upsertModelPolicy_succeeds_iff.mpr (by decide)⟩
  rw [untouchedBodies_policyRows] at hSaves
  have hRow := (List.forall₂_cons.mp hSaves).1
  rw [savesItself_iff plainHandler (by decide) (by decide)] at hRow
  rcases hRow with hBlank | hBlank | ⟨_, _, hRegistered⟩
  · revert hBlank
    decide
  · revert hBlank
    decide
  · revert hRegistered
    decide +kernel

end LlmBus

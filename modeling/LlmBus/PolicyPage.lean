import LlmBus.DashboardPage
import LlmBus.Providers

/-! # The policy page

One form for every pair of a project and a kind, and one to add a pair. Models are offered from
the registry only, grouped by what they are for.
-/

namespace LlmBus

open Foundation Foundation.Markup Foundation.Figures Foundation.Grouping

/-- `_CAPABILITY_ORDER` -/
def capabilityOrder : List Capability :=
  [.chat, .transcription, .embedding]

def Capability.text : Capability → Text
  | chat => txt "chat"
  | transcription => txt "transcription"
  | embedding => txt "embedding"

/-- `models_with_capability` -/
def modelsWithCapability (capability : Capability) : List Text :=
  sortOn id ((CAPABILITIES.filter fun e => decide (e.2 = capability)).map (·.1))

def modelOption (selected : Option Text) (model : Text) : Html :=
  [lit "<option value=\"", escaped model, lit "\""] ++
    (if some model = selected then [lit " selected"] else []) ++
    [lit ">", escaped model, lit "</option>"]

def optionGroup (selected : Option Text) (capability : Capability) : Html :=
  let models := modelsWithCapability capability
  if models.isEmpty then []
  else [lit "<optgroup label=\"", escaped capability.text, lit "\">"] ++
    models.flatMap (modelOption selected) ++ [lit "</optgroup>"]

/-- `_model_options` -/
def modelOptions (selected : Option Text) : Html :=
  (if selected = none then [lit "<option value=\"\" disabled selected>choose a model…</option>"]
    else []) ++ capabilityOrder.flatMap (optionGroup selected)

/-- A row up to its options. -/
def rowHead (policy : ModelPolicy) : Html :=
  [lit "<tr><td>", escaped policy.project, lit "</td><td>", escaped policy.kind, lit "</td>",
    lit "<td><form method=\"post\" action=\"/policy\">",
    lit "<input type=\"hidden\" name=\"project\" value=\"", escaped policy.project, lit "\">",
    lit "<input type=\"hidden\" name=\"kind\" value=\"", escaped policy.kind, lit "\">",
    lit "<select name=\"model\">"]

def rowFoot (policy : ModelPolicy) : Html :=
  [lit "</select>", lit "<button type=\"submit\">Save</button></form></td>",
    lit "<td class=\"stamp\">", escaped policy.updatedAt.isoformatSeconds, lit "</td>", lit "</tr>"]

def policyRow (policy : ModelPolicy) : Html :=
  rowHead policy ++ modelOptions (some policy.model) ++ rowFoot policy

/-- `_policy_rows` -/
def policyRows (policies : List ModelPolicy) : Html :=
  policies.flatMap policyRow

/-- `_table` -/
def policyTable (policies : List ModelPolicy) : Html :=
  if policies.isEmpty then
    [lit "<p class=\"empty\">No policies set yet. Until a pair is configured here, a job ",
      lit "that leaves its model unset is refused at submit — deliberately, so a project ",
      lit "never runs on a model nobody chose for it.</p>"]
  else
    [lit "<div class=\"scroll\"><table>",
      lit "<thead><tr><th>Project</th><th>Kind</th><th>Model</th><th>Changed</th></tr></thead>",
      lit "<tbody>"] ++ policyRows policies ++ [lit "</tbody></table></div>"]

/-- `_add_form` -/
def addForm : Html :=
  [lit "<form method=\"post\" action=\"/policy\" class=\"add\">",
    lit "<input name=\"project\" placeholder=\"project\" required>",
    lit "<input name=\"kind\" placeholder=\"kind (e.g. language.chat)\" required>",
    lit "<select name=\"model\" required>"] ++ modelOptions none ++
  [lit "</select>", lit "<button type=\"submit\">Set</button></form>"]

/-- `_STYLE`, line by line -/
def policyStyle : List String :=
  ["",
    ":root \x7b color-scheme: light; --surface:#fcfcfb; --plane:#f9f9f7; --ink:#0b0b0b;",
    "  --ink-2:#52514e; --muted:#898781; --grid:#e1e0d9; --axis:#c3c2b7;",
    "  --ring:rgba(11,11,11,0.10); --accent:#2a78d6; \x7d",
    "@media (prefers-color-scheme: dark) \x7b :root:not([data-theme=\"light\"]) \x7b",
    "  color-scheme: dark; --surface:#1a1a19; --plane:#0d0d0d; --ink:#fff;",
    "  --ink-2:#c3c2b7; --muted:#898781; --grid:#2c2c2a; --axis:#383835;",
    "  --ring:rgba(255,255,255,0.10); --accent:#3987e5; \x7d \x7d",
    ":root[data-theme=\"dark\"] \x7b color-scheme: dark; --surface:#1a1a19; --plane:#0d0d0d;",
    "  --ink:#fff; --ink-2:#c3c2b7; --muted:#898781; --grid:#2c2c2a; --axis:#383835;",
    "  --ring:rgba(255,255,255,0.10); --accent:#3987e5; \x7d",
    "* \x7b box-sizing:border-box; \x7d",
    "body \x7b margin:0; padding:2rem 1.25rem 4rem; background:var(--plane); color:var(--ink);",
    "  font-family:system-ui,-apple-system,\"Segoe UI\",sans-serif; line-height:1.5; \x7d",
    "main \x7b max-width:60rem; margin:0 auto; \x7d",
    "h1 \x7b font-size:1.125rem; font-weight:600; margin:0; \x7d",
    "h2 \x7b font-size:0.9375rem; font-weight:600; margin:0 0 0.75rem; \x7d",
    ".meta,.caption,.empty \x7b color:var(--muted); font-size:0.8125rem; margin:0.25rem 0 0; \x7d",
    ".card \x7b background:var(--surface); border:1px solid var(--ring); border-radius:12px;",
    "  padding:1.125rem 1.25rem 1.25rem; margin-top:1rem; \x7d",
    ".scroll \x7b overflow-x:auto; \x7d",
    "table \x7b border-collapse:collapse; width:100%; font-size:0.8125rem; \x7d",
    "th,td \x7b text-align:left; padding:0.5rem 0.75rem; border-bottom:1px solid var(--grid);",
    "  white-space:nowrap; \x7d",
    "thead th \x7b color:var(--muted); font-weight:500; \x7d",
    ".stamp \x7b color:var(--muted); font-variant-numeric:tabular-nums; \x7d",
    "select,input,button \x7b font:inherit; font-size:0.8125rem; padding:0.3125rem 0.5rem;",
    "  border:1px solid var(--axis); border-radius:6px; background:var(--surface);",
    "  color:var(--ink); \x7d",
    "button \x7b background:var(--accent); color:#fff; border-color:transparent;",
    "  cursor:pointer; margin-left:0.375rem; \x7d",
    ".add \x7b display:flex; gap:0.5rem; flex-wrap:wrap; \x7d",
    ".banner \x7b border:1px solid var(--ring); border-left:3px solid var(--accent);",
    "  background:var(--surface); border-radius:8px; padding:0.625rem 0.875rem;",
    "  margin-top:1rem; font-size:0.8125rem; \x7d",
    "footer \x7b color:var(--muted); font-size:0.75rem; margin-top:1.5rem; \x7d",
    "a \x7b color:var(--accent); \x7d"]

/-- No banner is shown for an empty notice. -/
def banner : Option Text → Html
  | none => []
  | some [] => []
  | some (c :: notice) => [lit "<div class=\"banner\">", escaped (c :: notice), lit "</div>"]

/-- The policy page from its head to its foot. -/
def policyParts (policies : List ModelPolicy) (generatedAt : DateTime) (notice : Option Text) :
    List Html :=
  [lineFed ["<!doctype html>", "<html lang=\"en\">", "<head>", "<meta charset=\"utf-8\">",
      "<meta name=\"viewport\" content=\"width=device-width, initial-scale=1\">",
      "<title>llmbus — model policy</title>"],
    lit "<style>" :: lineFed policyStyle,
    lineFed ["</style>", "</head>", "<body>", "<main>", "<header>",
      "<h1>llmbus — model policy</h1>",
      "<p class=\"meta\">Which model each project and kind runs on ·"],
    [lit "<a href=\"/\">cost ledger</a> · ", escaped generatedAt.isoformatSeconds, lit "</p>\n"],
    lineFed ["</header>"],
    banner notice,
    lit "\n" :: lineFed ["<section class=\"card\">", "<h2>Current policy</h2>"],
    policyTable policies,
    lit "\n" :: lineFed ["</section>", "<section class=\"card\">", "<h2>Set a policy</h2>",
      "<p class=\"caption\">An existing project and kind is replaced; a new pair is added.</p>"],
    addForm,
    lit "\n" :: lineFed ["</section>", "<footer>"],
    [lit "Models come from the bus registry (", .figure (count CAPABILITIES.length),
      lit " registered) and are grouped by what\n"],
    lineFed ["they serve. Adding a model, or changing a price, is a code change with a verified rate —",
      "never editable here.", "</footer>", "</main>", "</body>", "</html>"]]

/-- `render_policy_page` -/
def renderPolicyPage (policies : List ModelPolicy) (generatedAt : DateTime) (notice : Option Text) :
    Html :=
  (policyParts policies generatedAt notice).flatten

/-! ### Every part is a block -/

section Blocks

theorem modelOption_block (selected : Option Text) (model : Text) :
    Html.Block (modelOption selected model) := by
  unfold modelOption
  split
  · exact ⟨rfl, by simp⟩
  · exact ⟨rfl, by simp⟩

theorem optionGroup_block (selected : Option Text) (capability : Capability) :
    Html.Block (optionGroup selected capability) := by
  simp only [optionGroup]
  split
  · exact Html.Block.nil
  · refine Html.Block.append (Html.Block.append ⟨?_, by simp⟩
      (Html.Block.flatMap fun model _ => modelOption_block selected model))
      (.lit (Html.leavesText_ofList (by decide +kernel)) .nil)
    rw [Html.scan_lit, Html.scan_escaped, Html.scan_lit]
    rfl

theorem modelOptions_block (selected : Option Text) : Html.Block (modelOptions selected) := by
  have hGroups : Html.Block (capabilityOrder.flatMap (optionGroup selected)) :=
    Html.Block.flatMap fun capability _ => optionGroup_block selected capability
  unfold modelOptions
  split
  · exact Html.Block.append (.lit (Html.leavesText_ofList (by decide +kernel)) .nil) hGroups
  · exact hGroups

set_option maxRecDepth 4000 in
theorem rowHead_block (policy : ModelPolicy) : Html.Block (rowHead policy) := by
  refine ⟨?_, by simp [rowHead]⟩
  rw [rowHead]
  repeat first | rw [Html.scan_lit] | rw [Html.scan_escaped]
  rfl

theorem rowFoot_block (policy : ModelPolicy) : Html.Block (rowFoot policy) := by
  refine ⟨?_, by simp [rowFoot]⟩
  rw [rowFoot]
  repeat first | rw [Html.scan_lit] | rw [Html.scan_escaped]
  rfl

theorem policyRow_block (policy : ModelPolicy) : Html.Block (policyRow policy) :=
  ((rowHead_block policy).append (modelOptions_block _)).append (rowFoot_block policy)

theorem policyRows_block (policies : List ModelPolicy) : Html.Block (policyRows policies) :=
  Html.Block.flatMap fun policy _ => policyRow_block policy

theorem policyTable_block (policies : List ModelPolicy) : Html.Block (policyTable policies) := by
  unfold policyTable
  split
  · repeat refine Html.Block.lit (Html.leavesText_ofList (by decide +kernel)) ?_
    exact Html.Block.nil
  · refine Html.Block.append (Html.Block.append ?_ (policyRows_block policies)) ?_
    · repeat refine Html.Block.lit (Html.leavesText_ofList (by decide +kernel)) ?_
      exact Html.Block.nil
    · exact .lit (Html.leavesText_ofList (by decide +kernel)) .nil

theorem addForm_block : Html.Block addForm := by
  refine Html.Block.append (Html.Block.append ?_ (modelOptions_block none)) ?_
  · repeat refine Html.Block.lit (Html.leavesText_ofList (by decide +kernel)) ?_
    exact Html.Block.nil
  · repeat refine Html.Block.lit (Html.leavesText_ofList (by decide +kernel)) ?_
    exact Html.Block.nil

theorem policyStyle_block : Html.Block (lineFed policyStyle) := by
  apply Html.Block.lineFed
  simp only [policyStyle, List.forall_mem_cons, List.not_mem_nil, IsEmpty.forall_iff, implies_true,
    and_true]
  and_intros <;> exact Html.leavesText_ofList (by decide +kernel)

theorem banner_block (notice : Option Text) : Html.Block (banner notice) := by
  unfold banner
  split
  · exact Html.Block.nil
  · exact Html.Block.nil
  · refine ⟨?_, by simp⟩
    rw [Html.scan_lit, Html.scan_escaped, Html.scan_lit]
    rfl

theorem policyParts_block (policies : List ModelPolicy) (generatedAt : DateTime)
    (notice : Option Text) : ∀ part ∈ policyParts policies generatedAt notice, Html.Block part := by
  have hStyle : Html.Block (lit "<style>" :: lineFed policyStyle) :=
    .lit (Html.leavesText_ofList (by decide +kernel)) policyStyle_block
  have hFeed : Html.LeavesText "\n" := Html.leavesText_ofList (by decide +kernel)
  simp only [policyParts, List.forall_mem_cons, List.not_mem_nil, IsEmpty.forall_iff, implies_true, and_true]
  refine ⟨.lineFed ?_, hStyle, .lineFed ?_, ⟨?_, by simp⟩, .lineFed ?_, banner_block notice,
    .lit hFeed (.lineFed ?_), policyTable_block policies, .lit hFeed (.lineFed ?_), addForm_block,
    .lit hFeed (.lineFed ?_), ⟨?_, by simp⟩, .lineFed ?_⟩
  case refine_3 =>
    rw [Html.scan_lit, Html.scan_escaped, Html.scan_lit]
    rfl
  case refine_8 =>
    rw [Html.scan_lit, Html.scan_figure, Html.scan_lit]
    rfl
  all_goals
    simp only [List.forall_mem_cons, List.not_mem_nil, IsEmpty.forall_iff, implies_true, and_true]
    and_intros <;> exact Html.leavesText_ofList (by decide +kernel)

theorem renderPolicyPage_block (policies : List ModelPolicy) (generatedAt : DateTime)
    (notice : Option Text) : Html.Block (renderPolicyPage policies generatedAt notice) :=
  Html.Block.flatten (policyParts_block policies generatedAt notice)

end Blocks

/-! ### Names decide nothing of the layout -/

/-- The same option is selected in the rows of two policies. -/
def SameChoice (p p' : ModelPolicy) : Prop :=
  ∀ model, registered model = true → (model = p.model ↔ model = p'.model)

theorem registered_of_mem {model : Text} {capability : Capability}
    (h : model ∈ modelsWithCapability capability) : registered model = true := by
  obtain ⟨e, he, rfl⟩ := List.mem_map.mp (mem_sortOn.mp h)
  have hKeys : ∀ e ∈ CAPABILITIES, registered e.1 = true := List.all_eq_true.mp (by decide +kernel)
  exact hKeys e (List.mem_of_mem_filter he)

section Layout

variable {p p' : ModelPolicy}

theorem modelOption_same (h : SameChoice p p') {model : Text} (hModel : registered model = true) :
    modelOption (some p.model) model = modelOption (some p'.model) model := by
  have hSelected : some model = some p.model ↔ some model = some p'.model := by
    rw [Option.some_inj, Option.some_inj]
    exact h model hModel
  simp only [modelOption, hSelected]

theorem modelOptions_same (h : SameChoice p p') :
    modelOptions (some p.model) = modelOptions (some p'.model) := by
  have hGroup : optionGroup (some p.model) = optionGroup (some p'.model) := by
    funext capability
    have hOptions : (modelsWithCapability capability).flatMap (modelOption (some p.model)) =
        (modelsWithCapability capability).flatMap (modelOption (some p'.model)) :=
      List.flatMap_congr fun model hModel => modelOption_same h (registered_of_mem hModel)
    simp only [optionGroup, hOptions]
  simp only [modelOptions, hGroup, reduceCtorEq]

theorem policyRow_same (h : SameChoice p p') : SameSkeleton (policyRow p) (policyRow p') := by
  have hHead : (rowHead p).skeleton = (rowHead p').skeleton := rfl
  have hFoot : (rowFoot p).skeleton = (rowFoot p').skeleton := rfl
  simp only [SameSkeleton, policyRow, modelOptions_same h, Html.skeleton_append, hHead, hFoot]

theorem policyTable_same {policies policies' : List ModelPolicy}
    (h : List.Forall₂ SameChoice policies policies') :
    SameSkeleton (policyTable policies) (policyTable policies') := by
  have hRows : Html.skeleton (policyRows policies) = Html.skeleton (policyRows policies') :=
    Html.skeleton_flatMap (h.imp fun _ _ => policyRow_same)
  cases h with
  | nil => rfl
  | cons hHead hTail =>
    rw [policyTable, policyTable, if_neg (by simp), if_neg (by simp)]
    simp only [SameSkeleton, Html.skeleton_append, hRows]

theorem banner_same {notice notice' : Option Text}
    (h : notice.getD [] = [] ↔ notice'.getD [] = []) : SameSkeleton (banner notice) (banner notice') := by
  have hShown : ∀ notice : Option Text, Html.skeleton (banner notice) =
      if notice.getD [] = [] then [] else Html.skeleton (banner (some [0])) := by
    intro notice
    rcases notice with _ | _ | ⟨c, s⟩
    · rfl
    · rfl
    · rfl
  rw [SameSkeleton, hShown notice, hShown notice', if_congr h rfl rfl]

theorem renderPolicyPage_same {policies policies' : List ModelPolicy}
    (h : List.Forall₂ SameChoice policies policies') (generatedAt generatedAt' : DateTime)
    {notice notice' : Option Text} (hNotice : notice.getD [] = [] ↔ notice'.getD [] = []) :
    SameSkeleton (renderPolicyPage policies generatedAt notice)
      (renderPolicyPage policies' generatedAt' notice') := by
  apply Html.skeleton_flatten
  exact .cons rfl (.cons rfl (.cons rfl (.cons rfl (.cons rfl (.cons (banner_same hNotice)
    (.cons rfl (.cons (policyTable_same h) (.cons rfl (.cons rfl (.cons rfl (.cons rfl
      (.cons rfl .nil))))))))))))

end Layout

/-! ### No text from outside is markup -/

/-- What is shown of a text from outside means nothing to a scanner and gives the text back. -/
structure Contained (reader : Reader) (page : Html) : Prop where
  inert : ∀ hole ∈ page.holes, Inert hole.2
  readBack : ∀ hole ∈ page.holes, reader.read hole.2 = hole.1

theorem contained_of_block (reader : Reader) {page : Html} (h : Html.Block page) :
    Contained reader page where
  inert hole hMem := h.escaped hole hMem ▸ escape_inert hole.1
  readBack hole hMem := h.escaped hole hMem ▸ reader.read_escape hole.1

/-- Two pages that differ in what was put in and in no tag. -/
structure SameMarkup (page page' : Html) : Prop where
  skeleton : SameSkeleton page page'
  outline : page.outline = page'.outline

/-- Both pages, whatever they show, and both again with every text replaced. -/
theorem pages_contain_texts (reader : Reader) :
    (∀ summary generatedAt storePath page,
      renderDashboard summary generatedAt storePath = some page →
        Contained reader page ∧ ∀ summary' generatedAt' storePath', SameLayout summary summary' →
          ∃ page', renderDashboard summary' generatedAt' storePath' = some page' ∧
            SameMarkup page page') ∧
    ∀ policies generatedAt notice,
      Contained reader (renderPolicyPage policies generatedAt notice) ∧
        ∀ policies' generatedAt' notice', List.Forall₂ SameChoice policies policies' →
          (notice.getD [] = [] ↔ notice'.getD [] = []) →
            SameMarkup (renderPolicyPage policies generatedAt notice)
              (renderPolicyPage policies' generatedAt' notice') := by
  constructor
  · intro summary generatedAt storePath page hPage
    have hBlock := renderDashboard_block hPage
    refine ⟨contained_of_block reader hBlock, fun summary' generatedAt' storePath' hLayout => ?_⟩
    have hRel := renderDashboard_rel hLayout generatedAt generatedAt' storePath storePath'
    rw [hPage] at hRel
    cases hPage' : renderDashboard summary' generatedAt' storePath' with
    | none =>
      rw [hPage'] at hRel
      cases hRel
    | some page' =>
      rw [hPage'] at hRel
      cases hRel with
      | some hSame => exact ⟨page', rfl, hSame, hBlock.outline_eq (renderDashboard_block hPage') hSame⟩
  · intro policies generatedAt notice
    have hBlock := renderPolicyPage_block policies generatedAt notice
    refine ⟨contained_of_block reader hBlock, fun policies' generatedAt' notice' hChoice hNotice => ?_⟩
    have hSame := renderPolicyPage_same hChoice generatedAt generatedAt' hNotice
    exact ⟨hSame, hBlock.outline_eq (renderPolicyPage_block policies' generatedAt' notice') hSame⟩

/-- Two dollars of one project on one day, under whatever name. -/
def spentBy (project : Text) : CostSummary where
  rows := [⟨project, txt "2026-01-01", .finite 2⟩]
  byProject := [⟨project, .finite 2⟩]
  byDay := [⟨txt "2026-01-01", .finite 2⟩]
  grandTotal := .finite 2

theorem pages_contain_texts_script : ∃ page page',
    renderDashboard (spentBy (txt "<script>\"'&amp;")) (.startOf newYear2026) (txt "bus.db") =
      some page ∧
    renderDashboard (spentBy (txt "demo")) (.startOf newYear2026) (txt "bus.db") = some page' ∧
    Contained entityReader page ∧ SameMarkup page page' := by
  obtain ⟨page, hPage⟩ : ∃ page, renderDashboard (spentBy (txt "<script>\"'&amp;"))
      (.startOf newYear2026) (txt "bus.db") = some page :=
    Option.isSome_iff_exists.mp (by decide +kernel)
  have hLayout : SameLayout (spentBy (txt "<script>\"'&amp;")) (spentBy (txt "demo")) :=
    ⟨.cons rfl .nil, .cons rfl .nil, rfl, rfl, by decide +kernel⟩
  obtain ⟨hContained, hSame⟩ := (pages_contain_texts entityReader).1 _ _ _ _ hPage
  obtain ⟨page', hPage', hMarkup⟩ := hSame (spentBy (txt "demo")) (.startOf newYear2026)
    (txt "bus.db") hLayout
  exact ⟨page, page', hPage, hPage', hContained, hMarkup⟩

theorem outline_renderPolicyPage (policies : List ModelPolicy) (generatedAt : DateTime)
    (notice : Option Text) : (renderPolicyPage policies generatedAt notice).outline =
      ((policyParts policies generatedAt notice).flatMap (Html.tags .text)).map Tag.outline := by
  rw [Html.outline, (renderPolicyPage_block policies generatedAt notice).tags_text, renderPolicyPage,
    Html.tags_flatten (policyParts_block policies generatedAt notice)]

/-- A notice replaced by the empty one takes its banner with it. -/
theorem empty_notice_drops_banner : ¬ ∀ policies generatedAt (notice notice' : Text),
    (renderPolicyPage policies generatedAt (some notice)).outline =
      (renderPolicyPage policies generatedAt (some notice')).outline := by
  intro hAll
  have hBanner : (Html.tags .text (banner (some [0x21]))).length = 2 := by
    rw [banner, Html.tags_lit]
    rfl
  have hNone : (Html.tags .text (banner (some []))).length = 0 := rfl
  have hSame := congrArg List.length (hAll [] (.startOf newYear2026) [0x21] [])
  rw [outline_renderPolicyPage, outline_renderPolicyPage] at hSame
  simp only [policyParts, List.length_map, List.flatMap_cons, List.length_append, hBanner, hNone]
    at hSame
  omega

end LlmBus

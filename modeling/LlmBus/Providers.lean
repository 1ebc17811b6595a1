import LlmBus.Schema

/-! # Routing

One table says which provider serves a model, another what the model is for.
-/

namespace LlmBus

open Foundation

def openai : Text := txt "openai"

def anthropic : Text := txt "anthropic"

def PROVIDERS : List (Text × Text) :=
  [(txt "gpt-5", openai), (txt "gpt-5-mini", openai), (txt "gpt-5-nano", openai),
    (txt "gpt-5.4-mini", openai), (txt "gpt-5.2", openai), (txt "gpt-5.4", openai),
    (txt "gpt-5.5", openai), (txt "claude-opus-4-8", anthropic),
    (txt "claude-sonnet-5", anthropic), (txt "claude-haiku-4-5", anthropic)]

inductive Capability where
  | chat
  | transcription
  | embedding
  deriving DecidableEq

def CAPABILITIES : List (Text × Capability) :=
  [(txt "gpt-5", .chat), (txt "gpt-5-mini", .chat), (txt "gpt-5-nano", .chat),
    (txt "gpt-5.4-mini", .chat), (txt "gpt-5.2", .chat), (txt "gpt-5.4", .chat),
    (txt "gpt-5.5", .chat), (txt "claude-opus-4-8", .chat), (txt "claude-sonnet-5", .chat),
    (txt "claude-haiku-4-5", .chat)]

def providerFor (model : Text) : Except PyError Text :=
  match PROVIDERS.lookup model with
  | some provider => .ok provider
  | none => .error ⟨.unknownModelError, model⟩

def registered (model : Text) : Bool :=
  (CAPABILITIES.lookup model).isSome

theorem mem_of_lookup {α : Type} {table : List (Text × α)} {k : Text} {v : α}
    (h : table.lookup k = some v) : (k, v) ∈ table := by
  induction table with
  | nil => cases h
  | cons entry rest ih =>
    obtain ⟨k', v'⟩ := entry
    rw [List.lookup_cons] at h
    split at h
    · rename_i hk
      cases h
      rw [beq_iff_eq.mp hk]
      exact List.mem_cons_self
    · exact List.mem_cons_of_mem _ (ih h)

theorem providerFor_eq_ok {model provider : Text} (h : providerFor model = .ok provider) :
    provider = openai ∨ provider = anthropic := by
  unfold providerFor at h
  split at h
  · rename_i p hLookup
    cases h
    have hMem := List.mem_map_of_mem (f := Prod.snd) (mem_of_lookup hLookup)
    revert hMem
    have hTable : ∀ p ∈ PROVIDERS.map Prod.snd, p = openai ∨ p = anthropic := by decide
    exact hTable _
  · cases h

theorem asciiText_of_providerFor {model provider : Text} (h : providerFor model = .ok provider) :
    asciiText provider = true := by
  rcases providerFor_eq_ok h with rfl | rfl
  · decide
  · decide

structure ProviderResult where
  completion : Text
  inputTokens : ℤ
  outputTokens : ℤ
  deriving DecidableEq

end LlmBus

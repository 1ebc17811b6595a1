import LlmBus.Foundation.Timeline
import LlmBus.Cost

/-! # Prices over time

`price_for` read as a function of the date: which point of a history it picks, and what a
point that is added to the history changes.
-/

namespace LlmBus

open Foundation

/-- `price_for` against a table of histories. -/
def priceForIn (py : Interpreter) (table : List (Text × List PricePoint)) (model : Text)
    (on : Date) : Except PyError ModelPricing :=
  match table.lookup model with
  | none => .error ⟨.unknownModelError, model⟩
  | some points =>
    match priceIn points on with
    | none => .error ⟨.unknownModelError,
        py.repr model ++ txt " has no price effective on " ++ isoDate on⟩
    | some pricing => .ok pricing

/-- What a model's entry in the table has to be. -/
structure PriceHistory where
  points : List PricePoint
  points_ne : points ≠ []
  distinct : (points.map PricePoint.effective).Nodup

variable {py : Interpreter} {table : List (Text × List PricePoint)} {model : Text}
variable {points : List PricePoint} {on : Date}

/-! ### The point that is picked -/

theorem latest_mem (best : PricePoint) (rest : List PricePoint) :
    latest best rest ∈ best :: rest := by
  induction rest generalizing best with
  | nil => exact List.mem_singleton_self best
  | cons point rest ih =>
    rw [latest]
    split
    · exact List.mem_cons_of_mem best (ih point)
    · cases List.mem_cons.mp (ih best) with
      | inl h =>
        rw [h]
        exact List.mem_cons_self
      | inr h => exact List.mem_cons_of_mem best (List.mem_cons_of_mem point h)

theorem effective_le_latest (best : PricePoint) (rest : List PricePoint) :
    ∀ point ∈ best :: rest, point.effective ≤ (latest best rest).effective := by
  induction rest generalizing best with
  | nil => simp [latest]
  | cons next rest ih =>
    intro point hMem
    rw [latest]
    cases lt_or_ge best.effective next.effective with
    | inl hLater =>
      rw [if_pos hLater]
      rcases List.mem_cons.mp hMem with rfl | hRest
      · exact hLater.le.trans (ih next next List.mem_cons_self)
      · exact ih next point hRest
    | inr hEarlier =>
      rw [if_neg (not_lt.mpr hEarlier)]
      rcases List.mem_cons.mp hMem with rfl | hRest
      · exact ih point point List.mem_cons_self
      · rcases List.mem_cons.mp hRest with rfl | hRest
        · exact hEarlier.trans (ih best best List.mem_cons_self)
        · exact ih best point (List.mem_cons_of_mem best hRest)

theorem priceIn_eq_none_iff :
    priceIn points on = none ↔ ∀ point ∈ points, on < point.effective := by
  unfold priceIn
  split
  · rename_i hNone
    simpa using hNone
  · rename_i point rest hSome
    have hMem : point ∈ points.filter fun point => decide (point.effective ≤ on) := by
      rw [hSome]
      exact List.mem_cons_self
    obtain ⟨hPoint, hBegun⟩ := List.mem_filter.mp hMem
    simp only [reduceCtorEq, false_iff, not_forall, not_lt]
    exact ⟨point, hPoint, of_decide_eq_true hBegun⟩

theorem exists_inForce_of_priceIn {pricing : ModelPricing} (h : priceIn points on = some pricing) :
    ∃ point, InForce PricePoint.effective points on point ∧ point.pricing = pricing := by
  unfold priceIn at h
  split at h
  · cases h
  · rename_i point rest hSome
    have hApplicable : ∀ p, p ∈ point :: rest ↔ p ∈ points ∧ p.effective ≤ on := by
      intro p
      rw [← hSome, List.mem_filter, decide_eq_true_eq]
    have hPicked := (hApplicable _).mp (latest_mem point rest)
    exact ⟨latest point rest, ⟨hPicked.1, hPicked.2, fun other hMem hBegun =>
      effective_le_latest point rest other ((hApplicable other).mpr ⟨hMem, hBegun⟩)⟩,
      Option.some.inj h⟩

theorem priceIn_eq_of_inForce {point : PricePoint}
    (h : InForce PricePoint.effective points on point)
    (hDistinct : (points.map PricePoint.effective).Nodup) :
    priceIn points on = some point.pricing := by
  cases hPrice : priceIn points on with
  | none => exact absurd (priceIn_eq_none_iff.mp hPrice point h.mem) (not_lt.mpr h.begun)
  | some pricing =>
    obtain ⟨picked, hPicked, rfl⟩ := exists_inForce_of_priceIn hPrice
    rw [hPicked.eq h hDistinct]

/-! ### A point is added -/

section Added

variable {before after : List PricePoint} {added : PricePoint}

theorem nodup_insert (hDistinct : ((before ++ after).map PricePoint.effective).Nodup)
    (hFresh : ∀ old ∈ before ++ after, old.effective ≠ added.effective) :
    ((before ++ added :: after).map PricePoint.effective).Nodup := by
  apply (List.perm_middle.map PricePoint.effective).nodup_iff.mpr
  rw [List.map_cons, List.nodup_cons]
  refine ⟨fun hMem => ?_, hDistinct⟩
  obtain ⟨old, hOld, hEq⟩ := List.mem_map.mp hMem
  exact hFresh old hOld hEq

theorem priceIn_insert_of_inSpan (hDistinct : ((before ++ after).map PricePoint.effective).Nodup)
    (hFresh : ∀ old ∈ before ++ after, old.effective ≠ added.effective)
    (hSpan : InSpan PricePoint.effective (before ++ after) added on) :
    priceIn (before ++ added :: after) on = some added.pricing :=
  priceIn_eq_of_inForce (InForce.insert_of_inSpan hSpan) (nodup_insert hDistinct hFresh)

theorem priceIn_insert_of_not_inSpan
    (hDistinct : ((before ++ after).map PricePoint.effective).Nodup)
    (hOff : ¬ InSpan PricePoint.effective (before ++ after) added on) :
    priceIn (before ++ added :: after) on = priceIn (before ++ after) on := by
  cases hNew : priceIn (before ++ added :: after) on with
  | none =>
    have hAll := priceIn_eq_none_iff.mp hNew
    refine (priceIn_eq_none_iff.mpr fun point hMem => hAll point ?_).symm
    exact List.perm_middle.mem_iff.mpr (List.mem_cons_of_mem added hMem)
  | some pricing =>
    obtain ⟨point, hForce, rfl⟩ := exists_inForce_of_priceIn hNew
    exact (priceIn_eq_of_inForce ((InForce.insert_of_not_inSpan hOff).mp hForce) hDistinct).symm

end Added

/-! ### The table as a step function -/

theorem priceForIn_of_lookup (hTable : table.lookup model = some points) :
    priceForIn py table model on =
      match priceIn points on with
      | none => .error ⟨.unknownModelError,
          py.repr model ++ txt " has no price effective on " ++ isoDate on⟩
      | some pricing => .ok pricing := by
  rw [priceForIn, hTable]

theorem priceForIn_eq_ok_iff (hTable : table.lookup model = some points) {pricing : ModelPricing} :
    priceForIn py table model on = .ok pricing ↔ priceIn points on = some pricing := by
  rw [priceForIn_of_lookup hTable]
  cases priceIn points on with
  | none => simp
  | some found => simp

theorem exists_priceForIn_error_iff (hTable : table.lookup model = some points) :
    (∃ e, priceForIn py table model on = .error e) ↔ ∀ point ∈ points, on < point.effective := by
  rw [priceForIn_of_lookup hTable, ← priceIn_eq_none_iff]
  cases priceIn points on with
  | none => simp
  | some found => simp

/-- At every date the price is that of the one point in force, and there is none exactly
before the first point. A point that is added decides on its own span only. -/
theorem priceForIn_step_function (py : Interpreter) (table : List (Text × List PricePoint))
    (model : Text) (history : PriceHistory) (hTable : table.lookup model = some history.points) :
    (∀ on pricing, priceForIn py table model on = .ok pricing ↔
      ∃ point, InForce PricePoint.effective history.points on point ∧ point.pricing = pricing) ∧
    (∀ on, (∃ e, priceForIn py table model on = .error e) ↔
      ∀ point ∈ history.points, on < point.effective) ∧
    ∀ before after added extended, history.points = before ++ after →
      (∀ old ∈ history.points, old.effective ≠ added.effective) →
      List.lookup model extended = some (before ++ added :: after) →
      ∀ on, priceForIn py extended model on =
        if InSpan PricePoint.effective history.points added on then .ok added.pricing
        else priceForIn py table model on := by
  refine ⟨fun on pricing => ?_, fun on => exists_priceForIn_error_iff hTable, ?_⟩
  · rw [priceForIn_eq_ok_iff hTable]
    constructor
    · exact exists_inForce_of_priceIn
    · rintro ⟨point, hForce, rfl⟩
      exact priceIn_eq_of_inForce hForce history.distinct
  · intro before after added extended hSplit hFresh hExtended on
    have hDistinct := history.distinct
    rw [hSplit] at hTable hFresh hDistinct ⊢
    split
    · rename_i hSpan
      rw [priceForIn_eq_ok_iff hExtended]
      exact priceIn_insert_of_inSpan hDistinct hFresh hSpan
    · rename_i hOff
      rw [priceForIn_of_lookup hExtended, priceForIn_of_lookup hTable,
        priceIn_insert_of_not_inSpan hDistinct hOff]

/-- The two rates of Sonnet 5. -/
def sonnetHistory : PriceHistory where
  points := [⟨epoch, 2, 10⟩, ⟨firstOfSeptember, 3, 15⟩]
  points_ne := List.cons_ne_nil _ _
  distinct := by decide

def winterRate : PricePoint := ⟨⟨2026, 12, 1, by decide⟩, 4, 20⟩

/-- A later rate put between the two points binds from its date on and not before. -/
theorem winterRate_step_function :
    let extended := [(txt "claude-sonnet-5", [⟨epoch, 2, 10⟩, winterRate, ⟨firstOfSeptember, 3, 15⟩])]
    priceForIn .ascii extended (txt "claude-sonnet-5") ⟨2026, 12, 1, by decide⟩ = .ok ⟨4, 20⟩ ∧
    priceForIn .ascii extended (txt "claude-sonnet-5") ⟨2026, 11, 30, by decide⟩ =
      priceForIn .ascii PRICING (txt "claude-sonnet-5") ⟨2026, 11, 30, by decide⟩ := by
  intro extended
  obtain ⟨-, -, h⟩ :=
    priceForIn_step_function .ascii PRICING (txt "claude-sonnet-5") sonnetHistory rfl
  have hOn := h [⟨epoch, 2, 10⟩] [⟨firstOfSeptember, 3, 15⟩] winterRate extended rfl (by decide) rfl
  exact ⟨(hOn _).trans (if_pos (by decide)), (hOn _).trans (if_neg (by decide))⟩

end LlmBus

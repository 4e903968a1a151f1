import Mathlib.Data.List.Forall2

/-!
# Lists that are related item by item

A step that treats the items of a list one by one is described by a relation between the items
of its input and those of its output.  The lemmas here join such descriptions of several steps,
and read single items and their images off from them.
-/

namespace ScanCircuit

variable {α β γ : Type} {relation : α → β → Prop} {items : List α} {others : List β}

/-- Each item on the right is related to one on the left. -/
theorem exists_left_of_forall₂ (related : List.Forall₂ relation items others) {other : β}
    (listed : other ∈ others) : ∃ item ∈ items, relation item other := by
  induction related with
  | nil => cases listed
  | @cons item first _ _ here _ ih =>
      cases listed with
      | head => exact ⟨item, by simp, here⟩
      | tail _ later =>
          obtain ⟨found, member, there⟩ := ih later
          exact ⟨found, by simp [member], there⟩

theorem exists_right_of_forall₂ (related : List.Forall₂ relation items others) {item : α}
    (listed : item ∈ items) : ∃ other ∈ others, relation item other :=
  exists_left_of_forall₂ related.flip listed

/-- Lists have the same images if their related items do. -/
theorem map_eq_of_forall₂ {image : α → γ} {otherImage : β → γ}
    (related : List.Forall₂ relation items others)
    (same : ∀ item other, relation item other → image item = otherImage other) :
    items.map image = others.map otherImage := by
  rw [← List.forall₂_eq_eq_eq, List.forall₂_map_left_iff, List.forall₂_map_right_iff]
  exact related.imp same

/-- A condition on the items on the right holds along with the relation. -/
theorem forall₂_and_right {holds : β → Prop} (each : ∀ other ∈ others, holds other)
    (related : List.Forall₂ relation items others) :
    List.Forall₂ (fun item other => holds other ∧ relation item other) items others :=
  ((List.forall₂_and_left _ _).2 ⟨each, related.flip⟩).flip

/-- Lists that are related through a third one are related to each other. -/
theorem forall₂_trans {next : β → γ → Prop} {through : α → γ → Prop} {results : List γ}
    (related : List.Forall₂ relation items others) (nexts : List.Forall₂ next others results)
    (compose : ∀ item other result, relation item other → next other result →
      through item result) :
    List.Forall₂ through items results := by
  induction related generalizing results with
  | nil =>
      cases nexts
      exact .nil
  | cons first _ ih =>
      cases nexts with
      | cons second rest => exact .cons (compose _ _ _ first second) (ih rest)

/-- Related lists are both related to a third one whenever their items are. -/
theorem exists_forall₂ {left : β → γ → Prop} {right : α → γ → Prop}
    (related : List.Forall₂ relation items others)
    (between : ∀ item other, relation item other →
      ∃ middle, left other middle ∧ right item middle) :
    ∃ middles, List.Forall₂ left others middles ∧ List.Forall₂ right items middles := by
  induction related with
  | nil => exact ⟨[], .nil, .nil⟩
  | @cons item other _ _ first _ ih =>
      obtain ⟨middles, lefts, rights⟩ := ih
      obtain ⟨middle, isLeft, isRight⟩ := between item other first
      exact ⟨middle :: middles, .cons isLeft lefts, .cons isRight rights⟩

/-- Items that are decoded one by one are related to what they are decoded as. -/
theorem mapM_eq_some {decode : α → Option β} {decoded : List β} :
    items.mapM decode = some decoded ↔
      List.Forall₂ (fun item result => decode item = some result) items decoded := by
  induction items generalizing decoded with
  | nil => simp [eq_comm]
  | cons item rest ih =>
      simp only [List.mapM_cons, Option.pure_def, Option.bind_eq_bind, Option.bind_eq_some_iff,
        Option.some.injEq, ih]
      constructor
      · rintro ⟨first, here, others, there, rfl⟩
        exact .cons here there
      · intro each
        cases each with
        | cons here there => exact ⟨_, here, _, there, rfl⟩

end ScanCircuit

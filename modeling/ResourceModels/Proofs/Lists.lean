import Mathlib

/-!
# Lists

What the library lacks on dropping repetitions while the first occurrences stay, on parts of a row
without repetition, on values that are free, on the last result in a row, and on relating two lists
member by member where the relation may use membership.
-/

namespace ResourceModels

theorem nodup_eraseDups {α : Type} [BEq α] [LawfulBEq α] (values : List α) :
    values.eraseDups.Nodup := by
  induction hn : values.length using Nat.strong_induction_on generalizing values with
  | _ n ih =>
    cases values with
    | nil => exact List.nodup_nil
    | cons first rest =>
      have shorter : (rest.filter fun value => !value == first).length < n := by
        have bound := List.length_filter_le (fun value => !value == first) rest
        simp only [List.length_cons] at hn
        omega
      rw [List.eraseDups_cons, List.nodup_cons]
      exact ⟨by simp, ih _ shorter _ rfl⟩

theorem eraseDups_eq_self {α : Type} [BEq α] [LawfulBEq α] {values : List α}
    (distinct : values.Nodup) : values.eraseDups = values := by
  induction values with
  | nil => rfl
  | cons first rest ih =>
    obtain ⟨absent, distinct⟩ := List.nodup_cons.mp distinct
    have kept : (rest.filter fun value => !value == first) = rest := by
      rw [List.filter_eq_self]
      intro value member
      have different : value ≠ first := fun equal => absent (equal ▸ member)
      simpa using different
    rw [List.eraseDups_cons, kept, ih distinct]

/-- The next value is kept exactly when it is new. -/
theorem eraseDups_concat {α : Type} [BEq α] [LawfulBEq α] (values : List α) (value : α) :
    (values ++ [value]).eraseDups =
      if value ∈ values then values.eraseDups else values.eraseDups ++ [value] := by
  rw [List.eraseDups_append]
  by_cases known : value ∈ values <;> simp [List.removeAll, known, List.eraseDups_cons]

theorem eraseDups_eraseDups_append {α : Type} [BEq α] [LawfulBEq α] (first second : List α) :
    (first.eraseDups ++ second).eraseDups = (first ++ second).eraseDups := by
  have same_members : second.removeAll first.eraseDups = second.removeAll first := by
    simp only [List.removeAll]
    congr 1
    funext value
    simp
  rw [List.eraseDups_append, List.eraseDups_append, eraseDups_eq_self (nodup_eraseDups first),
    same_members]

theorem eraseDups_append_eraseDups {α : Type} [BEq α] [LawfulBEq α] (first second : List α) :
    (first ++ second.eraseDups).eraseDups = (first ++ second).eraseDups := by
  induction second using List.reverseRecOn with
  | nil => rfl
  | append_singleton second value ih =>
    rw [← List.append_assoc, eraseDups_concat (first ++ second), eraseDups_concat second]
    by_cases known : value ∈ second
    · simp [known, ih]
    · rw [if_neg known, ← List.append_assoc, eraseDups_concat, ih]
      simp only [List.mem_append, List.mem_eraseDups]

/-- Repetitions can be dropped from a part of a row first. -/
theorem eraseDups_splice {α : Type} [BEq α] [LawfulBEq α] (before run after : List α) :
    (before ++ (run.eraseDups ++ after)).eraseDups = (before ++ run ++ after).eraseDups := by
  rw [← List.append_assoc, ← eraseDups_eraseDups_append, eraseDups_append_eraseDups,
    eraseDups_eraseDups_append]

/-- Where there are more values than are taken, one of them is found to be free. -/
theorem exists_free {α : Type} [DecidableEq α] {values taken : List α} (distinct : values.Nodup)
    (more : taken.length < values.length) : ∃ free, values.find? (· ∉ taken) = some free := by
  rw [← Option.isSome_iff_exists, ← Option.ne_none_iff_isSome, ne_eq, List.find?_eq_none]
  intro none_free
  have all_taken : values ⊆ taken := fun value listed => by simpa using none_free value listed
  have bound := distinct.length_le_of_subset all_taken
  omega

/-- The last value for which there is a result gives the result. -/
theorem findSome?_reverse_concat {α β : Type} (f : α → Option β) (values : List α) (value : α) :
    (values ++ [value]).reverse.findSome? f = (f value).or (values.reverse.findSome? f) := by
  rw [List.reverse_concat, List.findSome?_cons]
  cases f value <;> rfl

/-- A part of a row without repetition is what is left of the row when all else is dropped. -/
theorem filter_of_sublist {α : Type} [DecidableEq α] {part row : List α} (among : part.Sublist row)
    (distinct : row.Nodup) : row.filter (· ∈ part) = part := by
  induction among with
  | slnil => rfl
  | cons first among ih =>
    obtain ⟨absent, distinct⟩ := List.nodup_cons.mp distinct
    rw [List.filter_cons_of_neg, ih distinct]
    simpa using fun inside => absent (among.subset inside)
  | cons_cons first among ih =>
    obtain ⟨absent, distinct⟩ := List.nodup_cons.mp distinct
    rw [List.filter_cons_of_pos (by simp)]
    refine congrArg _ (Eq.trans (List.filter_congr fun value inside => ?_) (ih distinct))
    have other : value ≠ first := fun same => absent (same ▸ inside)
    simp [other]

/-- Where keys are distinct, a member is the first one with its key. -/
theorem find?_of_nodup_map {α κ : Type} [DecidableEq κ] {key : α → κ} {values : List α}
    (distinct : (values.map key).Nodup) {value : α} (member : value ∈ values) :
    values.find? (fun other => decide (key other = key value)) = some value := by
  induction values with
  | nil => cases member
  | cons first rest ih =>
    obtain ⟨absent, distinct⟩ := List.nodup_cons.mp distinct
    rcases List.mem_cons.mp member with rfl | later
    · exact List.find?_cons_of_pos (decide_eq_true rfl)
    · have different : key first ≠ key value :=
        fun equal => absent (equal ▸ List.mem_map_of_mem later)
      rw [List.find?_cons_of_neg (by simpa using different)]
      exact ih distinct later

/-- A relation on members can be weakened with both memberships at hand. -/
theorem forall₂_imp_of_members {α β : Type} {R S : α → β → Prop} {first : List α} {second : List β}
    (related : List.Forall₂ R first second)
    (weaken : ∀ a ∈ first, ∀ b ∈ second, R a b → S a b) : List.Forall₂ S first second := by
  induction related with
  | nil => exact .nil
  | cons head tail ih =>
    refine .cons (weaken _ List.mem_cons_self _ List.mem_cons_self head) (ih ?_)
    exact fun a inside b inside' =>
      weaken a (List.mem_cons_of_mem _ inside) b (List.mem_cons_of_mem _ inside')

theorem forall₂_imp_of_mem {α β : Type} {R S : α → β → Prop} {first : List α} {second : List β}
    (related : List.Forall₂ R first second) (weaken : ∀ a ∈ first, ∀ b, R a b → S a b) :
    List.Forall₂ S first second :=
  forall₂_imp_of_members related fun a inside b _ => weaken a inside b

/-- Two relations on members, one after the other. -/
theorem forall₂_trans {α β γ : Type} {R : α → β → Prop} {S : β → γ → Prop} {T : α → γ → Prop}
    {first : List α} {second : List β} {third : List γ} (left : List.Forall₂ R first second)
    (right : List.Forall₂ S second third) (compose : ∀ a b c, R a b → S b c → T a c) :
    List.Forall₂ T first third := by
  induction left generalizing third with
  | nil =>
    cases right
    exact .nil
  | cons head tail ih =>
    cases right with
    | cons head' tail' => exact .cons (compose _ _ _ head head') (ih tail')

/-- A relation on members, and another that holds of every pair that stands together. -/
theorem forall₂_and_zip {α β : Type} {R S : α → β → Prop} {first : List α} {second : List β}
    (related : List.Forall₂ R first second) (each : ∀ a b, (a, b) ∈ first.zip second → S a b) :
    List.Forall₂ (fun a b => R a b ∧ S a b) first second := by
  refine List.forall₂_iff_zip.mpr ⟨related.length_eq, fun paired => ⟨?_, each _ _ paired⟩⟩
  exact (List.forall₂_iff_zip.mp related).2 paired

/-- What related members have in common, the lists have in common. -/
theorem map_eq_map_of_forall₂ {α β γ : Type} {R : α → β → Prop} {f : α → γ} {g : β → γ}
    {first : List α} {second : List β} (related : List.Forall₂ R first second)
    (same : ∀ a b, R a b → g b = f a) : second.map g = first.map f := by
  induction related with
  | nil => rfl
  | cons head tail ih => rw [List.map_cons, List.map_cons, same _ _ head, ih]

/-- A row is read where each value of it is. -/
theorem mapM_eq_some_iff {α β : Type} {f : α → Option β} {values : List α} {results : List β} :
    values.mapM f = some results ↔
      List.Forall₂ (fun value result => f value = some result) values results := by
  induction values generalizing results with
  | nil => simp [eq_comm]
  | cons value rest ih =>
    simp only [List.mapM_cons, List.forall₂_cons_left_iff, ← ih]
    cases f value <;> cases rest.mapM f <;> simp [eq_comm]

theorem exists_right_of_forall₂ {α β : Type} {R : α → β → Prop} {first : List α} {second : List β}
    (related : List.Forall₂ R first second) {a : α} (member : a ∈ first) :
    ∃ b ∈ second, R a b := by
  induction related with
  | nil => cases member
  | cons head tail ih =>
    rcases List.mem_cons.mp member with rfl | member
    · exact ⟨_, List.mem_cons_self, head⟩
    · obtain ⟨b, present, holds⟩ := ih member
      exact ⟨b, List.mem_cons_of_mem _ present, holds⟩

theorem exists_left_of_forall₂ {α β : Type} {R : α → β → Prop} {first : List α} {second : List β}
    (related : List.Forall₂ R first second) {b : β} (member : b ∈ second) :
    ∃ a ∈ first, R a b :=
  exists_right_of_forall₂ related.flip member

end ResourceModels

import Mathlib
import ResourceModels.Entries
import ResourceModels.Proofs.Lists

/-!
# Ordered entries: look-up and key order

Two views determine entries whose keys are pairwise different: the value under each key, and
the order of the keys. Each operation gets one equation for either view. In an order of insertion
a key counts where it first occurs, which is `List.eraseDups`.
-/

namespace ResourceModels

namespace Entries

variable {κ α β : Type} [DecidableEq κ]

omit [DecidableEq κ] in
@[simp] theorem keys_nil : keys ([] : Entries κ α) = [] := rfl

omit [DecidableEq κ] in
@[simp] theorem keys_cons (entry : κ × α) (rest : Entries κ α) :
    keys (entry :: rest) = entry.1 :: keys rest := rfl

omit [DecidableEq κ] in
@[simp] theorem keys_append (first second : Entries κ α) :
    keys (first ++ second) = keys first ++ keys second := List.map_append

omit [DecidableEq κ] in
theorem mem_keys_of_mem {entries : Entries κ α} {key : κ} {value : α}
    (member : (key, value) ∈ entries) : key ∈ keys entries :=
  List.mem_map.mpr ⟨_, member, rfl⟩

@[simp] theorem get?_nil (key : κ) : get? ([] : Entries κ α) key = none := rfl

theorem get?_cons (k key : κ) (value : α) (rest : Entries κ α) :
    get? ((k, value) :: rest) key = if k = key then some value else get? rest key := rfl

theorem get?_eq_none_iff (entries : Entries κ α) (key : κ) :
    get? entries key = none ↔ key ∉ keys entries := by
  induction entries with
  | nil => simp
  | cons entry rest ih =>
    obtain ⟨k, value⟩ := entry
    by_cases equal : k = key
    · simp [get?_cons, equal]
    · rw [get?_cons, if_neg equal, ih]
      simp [Ne.symm equal]

theorem mem_of_get? {entries : Entries κ α} {key : κ} {value : α}
    (found : get? entries key = some value) : (key, value) ∈ entries := by
  induction entries with
  | nil => cases found
  | cons entry rest ih =>
    obtain ⟨k, stored⟩ := entry
    rw [get?_cons] at found
    split at found
    next equal =>
      cases found
      subst equal
      exact List.mem_cons_self
    next => exact List.mem_cons_of_mem _ (ih found)

theorem mem_keys_of_get? {entries : Entries κ α} {key : κ} {value : α}
    (found : get? entries key = some value) : key ∈ keys entries :=
  mem_keys_of_mem (mem_of_get? found)

theorem exists_get? {entries : Entries κ α} {key : κ} (known : key ∈ keys entries) :
    ∃ value, get? entries key = some value :=
  Option.ne_none_iff_exists'.mp fun missing => (get?_eq_none_iff _ _).mp missing known

/-- A row of different keys that leaves out a key is shorter than the entries. -/
theorem cons_of_new_key {entries : Entries κ α} {row : List κ} (distinct : row.Nodup)
    (among : row ⊆ keys entries) {key : κ} {value : α} (found : get? entries key = some value)
    (new : key ∉ row) :
    (key :: row).Nodup ∧ key :: row ⊆ keys entries ∧ row.length < entries.length := by
  have longer : (key :: row).Nodup := List.nodup_cons.mpr ⟨new, distinct⟩
  have within : key :: row ⊆ keys entries :=
    List.cons_subset.mpr ⟨mem_keys_of_get? found, among⟩
  have bound := (List.subperm_of_subset longer within).length_le
  rw [List.length_cons, keys, List.length_map] at bound
  exact ⟨longer, within, bound⟩

theorem get?_of_mem {entries : Entries κ α} (distinct : (keys entries).Nodup) {key : κ} {value : α}
    (member : (key, value) ∈ entries) : get? entries key = some value := by
  induction entries with
  | nil => cases member
  | cons entry rest ih =>
    obtain ⟨k, stored⟩ := entry
    obtain ⟨absent, distinct⟩ := List.nodup_cons.mp distinct
    rw [get?_cons]
    rcases List.mem_cons.mp member with equal | member
    · cases equal
      exact if_pos rfl
    · have different : k ≠ key := by
        rintro rfl
        exact absent (mem_keys_of_mem member)
      rw [if_neg different]
      exact ih distinct member

/-- Entries with pairwise different keys are known from the order of the keys and the look-up. -/
theorem eq_of_views {first second : Entries κ α} (distinct : (keys first).Nodup)
    (same_keys : keys first = keys second) (same_values : ∀ key, get? first key = get? second key) :
    first = second := by
  induction first generalizing second with
  | nil =>
    cases second with
    | nil => rfl
    | cons entry rest => cases same_keys
  | cons entry rest ih =>
    cases second with
    | nil => cases same_keys
    | cons other others =>
      obtain ⟨key, value⟩ := entry
      obtain ⟨key', value'⟩ := other
      obtain ⟨absent, distinct⟩ := List.nodup_cons.mp distinct
      obtain ⟨same_key, same_rest⟩ := List.cons.inj same_keys
      replace same_key : key = key' := same_key
      subst same_key
      have same_head : value = value' := by simpa [get?_cons] using same_values key
      have tail_values : ∀ k, get? rest k = get? others k := by
        intro k
        by_cases equal : key = k
        · subst equal
          have gone : key ∉ keys others := by
            rw [show keys others = keys rest from same_rest.symm]
            exact absent
          rw [(get?_eq_none_iff _ _).mpr absent, (get?_eq_none_iff _ _).mpr gone]
        · have := same_values k
          simpa only [get?_cons, if_neg equal] using this
      rw [same_head, ih distinct same_rest tail_values]

theorem get?_append (first second : Entries κ α) (key : κ) :
    get? (first ++ second) key = (get? first key).or (get? second key) := by
  induction first with
  | nil => rfl
  | cons entry rest ih =>
    obtain ⟨k, value⟩ := entry
    by_cases equal : k = key
    · simp [get?_cons, equal]
    · simp [get?_cons, equal, ih]

/-- Where no key is repeated, the order does not matter to a look-up. -/
theorem get?_reverse {entries : Entries κ α} (distinct : (keys entries).Nodup) (key : κ) :
    get? entries.reverse key = get? entries key := by
  induction entries with
  | nil => rfl
  | cons entry rest ih =>
    obtain ⟨k, value⟩ := entry
    obtain ⟨absent, distinct⟩ := List.nodup_cons.mp distinct
    rw [List.reverse_cons, get?_append, ih distinct, get?_cons, get?_cons]
    by_cases equal : k = key
    · subst equal
      simp [(get?_eq_none_iff rest k).mpr absent]
    · simp [equal]

omit [DecidableEq κ] in
@[simp] theorem keys_mapValues (entries : Entries κ α) (f : α → β) :
    keys (mapValues entries f) = keys entries := by
  simp [keys, mapValues]

theorem get?_mapValues (entries : Entries κ α) (f : α → β) (key : κ) :
    get? (mapValues entries f) key = (get? entries key).map f := by
  induction entries with
  | nil => rfl
  | cons entry rest ih =>
    obtain ⟨k, value⟩ := entry
    change get? ((k, f value) :: mapValues rest f) key = _
    by_cases equal : k = key
    · simp [get?_cons, equal]
    · simp [get?_cons, equal, ih]

theorem get?_insert (entries : Entries κ α) (k key : κ) (value : α) :
    get? (insert entries k value) key = if k = key then some value else get? entries key := by
  induction entries with
  | nil => rfl
  | cons entry rest ih =>
    obtain ⟨k', old⟩ := entry
    by_cases equal : k' = k
    · subst equal
      by_cases sought : k' = key <;> simp [insert, get?_cons, sought]
    · rw [insert, if_neg equal, get?_cons, get?_cons, ih]
      by_cases sought : k' = key
      · have other : k ≠ key := fun same => equal (sought.trans same.symm)
        simp [sought, other]
      · simp [sought]

theorem keys_insert (entries : Entries κ α) (k : κ) (value : α) :
    keys (insert entries k value) =
      if k ∈ keys entries then keys entries else keys entries ++ [k] := by
  induction entries with
  | nil => simp [insert]
  | cons entry rest ih =>
    obtain ⟨k', old⟩ := entry
    by_cases equal : k' = k
    · simp [insert, equal]
    · rw [insert, if_neg equal, keys_cons, ih]
      by_cases known : k ∈ keys rest <;> simp [known, Ne.symm equal]

theorem insert_of_not_mem {entries : Entries κ α} {k : κ} (unknown : k ∉ keys entries)
    (value : α) : insert entries k value = entries ++ [(k, value)] := by
  induction entries with
  | nil => rfl
  | cons entry rest ih =>
    obtain ⟨k', old⟩ := entry
    rw [keys_cons, List.mem_cons, not_or] at unknown
    rw [insert, if_neg (Ne.symm unknown.1), ih unknown.2, List.cons_append]

theorem insertAll_concat (entries more : Entries κ α) (entry : κ × α) :
    insertAll entries (more ++ [entry]) = insert (insertAll entries more) entry.1 entry.2 := by
  simp [insertAll, List.foldl_append]

theorem insertAll_append (entries first second : Entries κ α) :
    insertAll entries (first ++ second) = insertAll (insertAll entries first) second := by
  simp [insertAll, List.foldl_append]

/-- A key keeps the place of its first insertion. -/
theorem keys_insertAll {entries : Entries κ α} (distinct : (keys entries).Nodup)
    (more : Entries κ α) :
    keys (insertAll entries more) = (keys entries ++ keys more).eraseDups := by
  induction more using List.reverseRecOn with
  | nil => simp [insertAll, eraseDups_eq_self distinct]
  | append_singleton more entry ih =>
    rw [insertAll_concat, keys_insert, ih, keys_append, ← List.append_assoc,
      show keys [entry] = [entry.1] from rfl, eraseDups_concat]
    simp only [List.mem_eraseDups]

/-- A key has the value of its last insertion. -/
theorem get?_insertAll (entries more : Entries κ α) (key : κ) :
    get? (insertAll entries more) key = (get? more.reverse key).or (get? entries key) := by
  induction more using List.reverseRecOn with
  | nil => simp [insertAll]
  | append_singleton more entry ih =>
    obtain ⟨k, value⟩ := entry
    rw [insertAll_concat, get?_insert, ih, List.reverse_concat, get?_cons]
    by_cases equal : k = key <;> simp [equal]

/-- Entries without a repeated key are put together again as they were. -/
theorem insertAll_nil_eq_self {entries : Entries κ α} (distinct : (keys entries).Nodup) :
    insertAll [] entries = entries := by
  have none_yet : (keys ([] : Entries κ α)).Nodup := List.nodup_nil
  have same_keys : keys (insertAll [] entries) = keys entries := by
    rw [keys_insertAll none_yet, keys_nil, List.nil_append, eraseDups_eq_self distinct]
  apply eq_of_views (same_keys ▸ distinct) same_keys
  intro key
  rw [get?_insertAll, get?_reverse distinct, get?_nil, Option.or_none]

theorem nodup_keys_insert {entries : Entries κ α} (distinct : (keys entries).Nodup) (k : κ)
    (value : α) : (keys (insert entries k value)).Nodup := by
  rw [keys_insert]
  split
  next => exact distinct
  next absent => exact List.nodup_append.mpr ⟨distinct, List.nodup_singleton k, by grind⟩

theorem mem_insert {entries : Entries κ α} {k : κ} {value : α} {entry : κ × α}
    (present : entry ∈ insert entries k value) : entry = (k, value) ∨ entry ∈ entries := by
  induction entries with
  | nil => exact .inl (List.mem_singleton.mp present)
  | cons first rest ih =>
    obtain ⟨k', old⟩ := first
    rw [insert] at present
    split at present
    next equal =>
      rcases List.mem_cons.mp present with rfl | later
      · exact .inl (by rw [equal])
      · exact .inr (List.mem_cons_of_mem _ later)
    next =>
      rcases List.mem_cons.mp present with rfl | later
      · exact .inr List.mem_cons_self
      · exact (ih later).imp_right (List.mem_cons_of_mem _)

theorem mem_insertAll {entries more : Entries κ α} {entry : κ × α}
    (present : entry ∈ insertAll entries more) : entry ∈ entries ∨ entry ∈ more := by
  induction more using List.reverseRecOn with
  | nil => exact .inl present
  | append_singleton more last ih =>
    rw [insertAll_concat] at present
    rcases mem_insert present with rfl | earlier
    · exact .inr (List.mem_append_right _ (List.mem_singleton.mpr rfl))
    · exact (ih earlier).imp_right (List.mem_append_left _)

/-- Putting what is there changes nothing. -/
theorem insert_eq_self {entries : Entries κ α} {k : κ} {value : α}
    (found : get? entries k = some value) : insert entries k value = entries := by
  induction entries with
  | nil => cases found
  | cons entry rest ih =>
    obtain ⟨k', old⟩ := entry
    rw [get?_cons] at found
    rw [insert]
    by_cases equal : k' = k
    · rw [if_pos equal] at found ⊢
      rw [Option.some.inj found]
    · rw [if_neg equal] at found ⊢
      rw [ih found]

theorem insert_insert (entries : Entries κ α) (k : κ) (first second : α) :
    insert (insert entries k first) k second = insert entries k second := by
  induction entries with
  | nil => simp [insert]
  | cons entry rest ih =>
    obtain ⟨k', old⟩ := entry
    by_cases equal : k' = k <;> simp [insert, equal, ih]

/-- Two keys that have their places already can be put in either order. -/
theorem insert_comm {entries : Entries κ α} {k l : κ} (different : k ≠ l)
    (k_known : (get? entries k).isSome) (l_known : (get? entries l).isSome) (first second : α) :
    insert (insert entries k first) l second = insert (insert entries l second) k first := by
  induction entries with
  | nil => cases k_known
  | cons entry rest ih =>
    obtain ⟨k', old⟩ := entry
    rw [get?_cons] at k_known l_known
    by_cases is_k : k' = k
    · have not_l : k' ≠ l := fun same => different (is_k.symm.trans same)
      simp [insert, is_k, is_k ▸ not_l]
    · rw [if_neg is_k] at k_known
      by_cases is_l : k' = l
      · simp [insert, is_l, is_l ▸ is_k]
      · rw [if_neg is_l] at l_known
        simp [insert, is_k, is_l, ih k_known l_known]

theorem get?_alter (entries : Entries κ α) (k key : κ) (new : α) (change : α → α) :
    get? (alter entries k new change) key =
      if k = key then some (((get? entries key).map change).getD new) else get? entries key := by
  induction entries with
  | nil => rfl
  | cons entry rest ih =>
    obtain ⟨k', old⟩ := entry
    by_cases equal : k' = k
    · subst equal
      by_cases sought : k' = key <;> simp [alter, get?_cons, sought]
    · rw [alter, if_neg equal, get?_cons, get?_cons, ih]
      by_cases sought : k' = key
      · have other : k ≠ key := fun same => equal (sought.trans same.symm)
        simp [sought, other]
      · simp [sought]

theorem keys_alter (entries : Entries κ α) (k : κ) (new : α) (change : α → α) :
    keys (alter entries k new change) =
      if k ∈ keys entries then keys entries else keys entries ++ [k] := by
  induction entries with
  | nil => simp [alter]
  | cons entry rest ih =>
    obtain ⟨k', old⟩ := entry
    by_cases equal : k' = k
    · simp [alter, equal]
    · rw [alter, if_neg equal, keys_cons, ih]
      by_cases known : k ∈ keys rest <;> simp [known, Ne.symm equal]

/-- The key is there afterwards. -/
theorem find?_keys_alter (entries : Entries κ α) (k : κ) (new : α) (change : α → α) :
    (keys (alter entries k new change)).find? (· = k) = some k := by
  have known : k ∈ keys (alter entries k new change) := by
    rw [keys_alter]
    split <;> simp [*]
  cases first : (keys (alter entries k new change)).find? (· = k) with
  | none => exact absurd (List.find?_eq_none.mp first k known) (by simp)
  | some found =>
    have same := List.find?_some first
    rw [of_decide_eq_true same]

theorem alter_of_not_mem {entries : Entries κ α} {k : κ} (unknown : k ∉ keys entries) (new : α)
    (change : α → α) : alter entries k new change = entries ++ [(k, new)] := by
  induction entries with
  | nil => rfl
  | cons entry rest ih =>
    obtain ⟨k', old⟩ := entry
    rw [keys_cons, List.mem_cons, not_or] at unknown
    rw [alter, if_neg (Ne.symm unknown.1), ih unknown.2, List.cons_append]

/-- The lists of one key joined, in the place of the first of them. -/
def gathered (lists : List (κ × List α)) : Entries κ (List α) :=
  lists.foldl (fun groups entry => alter groups entry.1 entry.2 (· ++ entry.2)) []

/-- Everything that is listed under a key. -/
def listedAt (lists : List (κ × List α)) (key : κ) : List α :=
  (lists.filter fun entry => decide (entry.1 = key)).flatMap Prod.snd

theorem mem_listedAt {lists : List (κ × List α)} {key : κ} {value : α} :
    value ∈ listedAt lists key ↔ ∃ values, (key, values) ∈ lists ∧ value ∈ values := by
  simp only [listedAt, List.mem_flatMap, List.mem_filter, decide_eq_true_eq, Prod.exists]
  constructor
  · rintro ⟨_, values, ⟨listed, rfl⟩, inside⟩
    exact ⟨values, listed, inside⟩
  · rintro ⟨values, listed, inside⟩
    exact ⟨key, values, ⟨listed, rfl⟩, inside⟩

theorem listedAt_eq_nil {lists : List (κ × List α)} {key : κ}
    (unknown : key ∉ lists.map Prod.fst) : listedAt lists key = [] := by
  rw [List.eq_nil_iff_forall_not_mem]
  intro value inside
  obtain ⟨values, listed, -⟩ := mem_listedAt.mp inside
  exact unknown (List.mem_map_of_mem listed)

theorem gathered_concat (lists : List (κ × List α)) (entry : κ × List α) :
    gathered (lists ++ [entry]) =
      alter (gathered lists) entry.1 entry.2 (· ++ entry.2) := by
  simp [gathered, List.foldl_append]

theorem keys_gathered [BEq κ] [LawfulBEq κ] (lists : List (κ × List α)) :
    keys (gathered lists) = (lists.map Prod.fst).eraseDups := by
  induction lists using List.reverseRecOn with
  | nil => rfl
  | append_singleton lists entry ih =>
    rw [gathered_concat, keys_alter, ih, List.map_append, List.map_singleton, eraseDups_concat]
    by_cases known : entry.1 ∈ lists.map Prod.fst <;>
      simp only [List.mem_eraseDups, known, if_true, if_false]

theorem get?_gathered (lists : List (κ × List α)) (key : κ) : get? (gathered lists) key =
    if key ∈ lists.map Prod.fst then some (listedAt lists key) else none := by
  induction lists using List.reverseRecOn with
  | nil => rfl
  | append_singleton lists entry ih =>
    have listed_concat : listedAt (lists ++ [entry]) key =
        listedAt lists key ++ if entry.1 = key then entry.2 else [] := by
      rw [listedAt, List.filter_append, List.flatMap_append, ← listedAt]
      by_cases here : entry.1 = key <;> simp [here]
    rw [gathered_concat, get?_alter, ih, listed_concat, List.map_append, List.map_singleton]
    by_cases here : entry.1 = key
    · subst here
      by_cases known : entry.1 ∈ lists.map Prod.fst
      · simp [known]
      · simp [known, listedAt_eq_nil known]
    · by_cases known : key ∈ lists.map Prod.fst <;> simp [here, known, Ne.symm here]

theorem eq_listedAt_of_mem_gathered {lists : List (κ × List α)} {key : κ} {values : List α}
    (present : (key, values) ∈ gathered lists) : values = listedAt lists key := by
  have distinct : (keys (gathered lists)).Nodup := by
    rw [keys_gathered]
    exact nodup_eraseDups (lists.map Prod.fst)
  have found := get?_of_mem distinct present
  rw [get?_gathered] at found
  split at found
  next => exact (Option.some.inj found).symm
  next => cases found

/-- Lists under different keys are left as they are. -/
theorem gathered_eq_self {lists : List (κ × List α)} (distinct : (keys lists).Nodup) :
    gathered lists = lists := by
  induction lists using List.reverseRecOn with
  | nil => rfl
  | append_singleton lists entry ih =>
    rw [keys_append, List.nodup_append] at distinct
    obtain ⟨distinct, -, apart⟩ := distinct
    have unknown : entry.1 ∉ keys lists :=
      fun listed => apart _ listed entry.1 (List.mem_singleton.mpr rfl) rfl
    rw [gathered_concat, ih distinct, alter_of_not_mem unknown]

end Entries

end ResourceModels

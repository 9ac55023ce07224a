import Mathlib
import ResourceModels.Code.ModuleText
import ResourceModels.Proofs.Entries
import ResourceModels.Proofs.Scopes

/-!
# Declarations in the order of their ranks

Passes over the declarations give ranks, and what no pass can place gets the last ones. Whatever the
passes do, three things hold between them (`Progress`): the ranks count up, every declaration either
has a rank or waits, and what has a rank refers to lower ranks only. What waits at the end refers to
something that waits, and so runs into a circle. Hence the ranks are a topological order as far as
there is one, with everything that runs into a circle after it (`declarationOrder_ranked`), and each
module lists its classes by these ranks.
-/

namespace ResourceModels.Code.DeclarationOrder

/-- The classes that a set declares, in its order. -/
def declared (set : ModelSet) : List ClassRef :=
  set.flatMap fun home => home.models.map fun model => ⟨home.path, model.name⟩

/-- The declaration of the first class mentions the second, another one that is declared too. -/
def RefersTo (set : ModelSet) (first second : ClassRef) : Prop :=
  (∃ home ∈ set, ∃ model ∈ home.models, first = ⟨home.path, model.name⟩ ∧ second ∈ model.refs) ∧
    second ≠ first ∧ second ∈ declared set

/-- References lead from the class to one that leads back to itself. -/
def ReachesCycle (set : ModelSet) (name : ClassRef) : Prop :=
  ∃ turn, Relation.ReflTransGen (RefersTo set) name turn ∧
    Relation.TransGen (RefersTo set) turn turn

/-- Both classes have a rank, and the first has the lower one. -/
def Before (ranks : Ranks) (first second : ClassRef) : Prop :=
  ∃ lower higher, Entries.get? ranks first = some lower ∧
    Entries.get? ranks second = some higher ∧ lower < higher

/-- The ranks count the keys in their order. -/
def CountUp (ranks : Ranks) : Prop := ranks.map Prod.snd = List.range ranks.length

theorem CountUp.lt_length {ranks : Ranks} (counted : CountUp ranks) {name : ClassRef} {rank : Nat}
    (ranked : Entries.get? ranks name = some rank) : rank < ranks.length := by
  have listed : rank ∈ ranks.map Prod.snd := List.mem_map_of_mem (Entries.mem_of_get? ranked)
  rw [counted] at listed
  exact List.mem_range.mp listed

theorem CountUp.append {ranks : Ranks} (counted : CountUp ranks) (names : List ClassRef) :
    CountUp (ranks ++ names.zipIdx ranks.length) := by
  unfold CountUp at *
  rw [List.map_append, counted, List.zipIdx_map_snd, List.length_append, List.length_zipIdx,
    List.range_eq_range', List.range_eq_range', ← List.range'_append_1, Nat.zero_add]

theorem CountUp.pairwise {ranks : Ranks} (counted : CountUp ranks)
    (distinct : (Entries.keys ranks).Nodup) : (Entries.keys ranks).Pairwise (Before ranks) := by
  have increasing : ranks.Pairwise fun first second => first.2 < second.2 := by
    rw [← List.pairwise_map (f := Prod.snd) (R := (· < ·)), counted]
    exact List.pairwise_lt_range
  rw [Entries.keys, List.pairwise_map]
  refine increasing.imp_of_mem fun {first second} here there lower => ?_
  exact ⟨first.2, second.2, Entries.get?_of_mem distinct here, Entries.get?_of_mem distinct there,
    lower⟩

theorem owners_pending (set : ModelSet) : (pending set).map Pending.owner = declared set := by
  simp [pending, declared, List.map_flatMap, Function.comp_def]

theorem exists_item {set : ModelSet} {first second : ClassRef}
    (refers : RefersTo set first second) :
    ∃ item ∈ pending set, item.owner = first ∧ second ∈ item.needs := by
  obtain ⟨⟨home, present, model, inside, rfl, mentioned⟩, other, -⟩ := refers
  refine ⟨_, List.mem_flatMap.mpr ⟨home, present, List.mem_map_of_mem inside⟩, rfl, ?_⟩
  simpa using ⟨mentioned, other⟩

theorem refersTo_of_need {set : ModelSet} {item : Pending} (listed : item ∈ pending set)
    {need : ClassRef} (needed : need ∈ item.needs) (known : need ∈ declared set) :
    RefersTo set item.owner need := by
  obtain ⟨home, present, inside⟩ := List.mem_flatMap.mp listed
  obtain ⟨model, among, rfl⟩ := List.mem_map.mp inside
  obtain ⟨mentioned, other⟩ := List.mem_filter.mp needed
  exact ⟨⟨home, present, model, among, rfl, mentioned⟩, by simpa using other, known⟩

theorem isReady_iff {names : List ClassRef} {ranks : Ranks} {item : Pending} :
    isReady names ranks item = true ↔
      ∀ need ∈ item.needs, need ∈ names → need ∈ Entries.keys ranks := by
  have has_iff : ∀ need, Entries.has ranks need = true ↔ need ∈ Entries.keys ranks := by
    intro need
    rw [Entries.has, Option.isSome_iff_ne_none, ne_eq, Entries.get?_eq_none_iff, not_not]
  simp only [isReady, List.all_eq_true, Bool.or_eq_true, has_iff, Bool.not_eq_true',
    List.contains_eq_mem, decide_eq_false_iff_not]
  exact forall₂_congr fun need needed => by tauto

/-- What holds of the ranks given so far and of what still waits. -/
structure Progress (set : ModelSet) (ranks : Ranks) (waiting : List Pending) : Prop where
  counted : CountUp ranks
  /-- Every declaration has a rank or waits. -/
  divided : (Entries.keys ranks ++ waiting.map Pending.owner).Perm (declared set)
  inOrder : waiting.Sublist (pending set)
  /-- References lead from ranks to lower ranks. -/
  supported : ∀ first rank, Entries.get? ranks first = some rank →
    ∀ second, RefersTo set first second → ∃ lower < rank, Entries.get? ranks second = some lower

namespace Progress

variable {set : ModelSet}

theorem start (set : ModelSet) : Progress set [] (pending set) where
  counted := rfl
  divided := by simp [owners_pending]
  inOrder := List.Sublist.refl _
  supported first rank found := by cases found

variable {ranks : Ranks} {waiting skipped rest : List Pending} {item : Pending}

theorem nodup (progress : Progress set ranks waiting) (distinct : (declared set).Nodup) :
    (Entries.keys ranks ++ waiting.map Pending.owner).Nodup :=
  progress.divided.nodup_iff.mpr distinct

/-- One step: a declaration that is ready gets the next rank. -/
theorem place (progress : Progress set ranks (skipped ++ item :: rest))
    (distinct : (declared set).Nodup) (ready : isReady (declared set) ranks item = true) :
    Progress set (Entries.insert ranks item.owner ranks.length) (skipped ++ rest) := by
  have unranked : item.owner ∉ Entries.keys ranks := by
    intro ranked
    refine (List.nodup_append.mp (progress.nodup distinct)).2.2 _ ranked item.owner ?_ rfl
    simp
  have inserted := Entries.insert_of_not_mem unranked ranks.length
  have listed : item ∈ pending set := progress.inOrder.subset (by simp)
  constructor
  case counted =>
    rw [inserted]
    exact progress.counted.append [item.owner]
  case divided =>
    refine List.Perm.trans ?_ progress.divided
    rw [inserted, Entries.keys_append, List.append_assoc]
    refine List.Perm.append_left _ ?_
    exact (List.perm_middle.map Pending.owner).symm
  case inOrder =>
    exact List.Sublist.trans ((List.sublist_cons_self _ _).append_left _) progress.inOrder
  case supported =>
    intro first rank found second refers
    have keep : ∀ lower, Entries.get? ranks second = some lower →
        Entries.get? (Entries.insert ranks item.owner ranks.length) second = some lower := by
      intro lower stored
      rw [inserted, Entries.get?_append, stored, Option.some_or]
    rw [Entries.get?_insert] at found
    split at found
    next here =>
      -- the new rank is above all ranks there are
      cases found
      subst here
      obtain ⟨item', listed', same_owner, needed⟩ := exists_item refers
      obtain rfl : item' = item := by
        rw [← owners_pending] at distinct
        exact List.inj_on_of_nodup_map distinct listed' listed same_owner
      obtain ⟨lower, stored⟩ := Entries.exists_get? (isReady_iff.mp ready _ needed refers.2.2)
      exact ⟨lower, progress.counted.lt_length stored, keep lower stored⟩
    next =>
      obtain ⟨lower, below, stored⟩ := progress.supported first rank found second refers
      exact ⟨lower, below, keep lower stored⟩

/-- One pass. What it has skipped waits before what is still to come. -/
theorem pass (progress : Progress set ranks (skipped ++ rest)) (distinct : (declared set).Nodup) :
    Progress set (DeclarationOrder.pass (declared set) ranks rest).1
      (skipped ++ (DeclarationOrder.pass (declared set) ranks rest).2) := by
  induction rest generalizing ranks skipped with
  | nil => exact progress
  | cons item rest ih =>
    rw [DeclarationOrder.pass]
    split
    next ready => exact ih (progress.place distinct ready)
    next =>
      have moved : Progress set ranks ((skipped ++ [item]) ++ rest) := by simpa using progress
      simpa using ih moved

end Progress

theorem length_pass_le (names : List ClassRef) (ranks : Ranks) (items : List Pending) :
    (pass names ranks items).2.length ≤ items.length := by
  induction items generalizing ranks with
  | nil => simp [pass]
  | cons item rest ih =>
    rw [pass]
    split
    next => exact (ih _).trans (Nat.le_succ _)
    next => simpa using ih ranks

/-- A pass that leaves as many waiting as before has found nothing ready. -/
theorem pass_of_stuck {names : List ClassRef} {ranks : Ranks} {items : List Pending}
    (stuck : items.length ≤ (pass names ranks items).2.length) :
    pass names ranks items = (ranks, items) ∧ ∀ item ∈ items, ¬isReady names ranks item := by
  induction items generalizing ranks with
  | nil => simp [pass]
  | cons item rest ih =>
    rw [pass] at stuck ⊢
    split at stuck
    next =>
      have bound := length_pass_le names (Entries.insert ranks item.owner ranks.length) rest
      simp only [List.length_cons] at stuck
      omega
    next unready =>
      rw [if_neg unready]
      obtain ⟨unchanged, none_ready⟩ := ih (by simpa using stuck)
      simp only [unchanged, List.forall_mem_cons]
      exact ⟨trivial, unready, none_ready⟩

theorem placeLeft_eq {ranks : Ranks} {items : List Pending}
    (distinct : (Entries.keys ranks ++ items.map Pending.owner).Nodup) :
    placeLeft ranks items = ranks ++ (items.map Pending.owner).zipIdx ranks.length := by
  induction items generalizing ranks with
  | nil => simp [placeLeft]
  | cons item rest ih =>
    have unranked : item.owner ∉ Entries.keys ranks := fun ranked =>
      (List.nodup_append.mp distinct).2.2 _ ranked item.owner (by simp) rfl
    have inserted := Entries.insert_of_not_mem unranked ranks.length
    have step : placeLeft ranks (item :: rest) =
        placeLeft (Entries.insert ranks item.owner ranks.length) rest := by
      rw [placeLeft, List.foldl_cons, if_neg]
      · rfl
      · simp [Entries.has, (Entries.get?_eq_none_iff _ _).mpr unranked]
    rw [step, inserted, ih (by simpa using distinct)]
    simp

/-- The run: passes place what they can, and the rest follows in its order. -/
theorem settle_spec {set : ModelSet} {ranks : Ranks} {waiting : List Pending}
    (progress : Progress set ranks waiting) (distinct : (declared set).Nodup) :
    ∃ placed left, Progress set placed left ∧
      (∀ item ∈ left, ¬isReady (declared set) placed item) ∧
      settle (declared set) ranks waiting =
        placed ++ (left.map Pending.owner).zipIdx placed.length := by
  induction hn : waiting.length using Nat.strong_induction_on generalizing ranks waiting with
  | _ n ih =>
    cases waiting with
    | nil => exact ⟨ranks, [], progress, by simp, by simp [settle]⟩
    | cons item rest =>
      rw [settle.eq_2 _ _ _ (List.cons_ne_nil item rest)]
      split
      next shorter =>
        have nothing_skipped : Progress set ranks ([] ++ item :: rest) := progress
        exact ih _ (hn ▸ shorter) (nothing_skipped.pass distinct) rfl
      next same_length =>
        obtain ⟨unchanged, none_ready⟩ := pass_of_stuck (Nat.le_of_not_lt same_length)
        rw [unchanged]
        exact ⟨ranks, item :: rest, progress, none_ready,
          placeLeft_eq (progress.nodup distinct)⟩

/-- Where everything in a finite list leads on within the list, it all runs into a circle. -/
theorem exists_circle {α : Type} {next : α → α → Prop} {values : List α}
    (leads : ∀ first ∈ values, ∃ second ∈ values, next first second) {first : α}
    (listed : first ∈ values) :
    ∃ turn, Relation.ReflTransGen next first turn ∧ Relation.TransGen next turn turn := by
  by_contra circle_free
  push Not at circle_free
  let Found := { value // value ∈ values ∧ Relation.ReflTransGen next first value }
  let after (later earlier : Found) : Prop := Relation.TransGen next earlier.1 later.1
  have : Finite Found := (List.finite_toSet values).subset fun value found => found.1
  have : IsTrans Found after := ⟨fun _ _ _ later earlier => earlier.trans later⟩
  have : Std.Irrefl after := ⟨fun value turns => circle_free value.1 value.2.2 turns⟩
  obtain ⟨last, -, final⟩ := (Finite.wellFounded_of_trans_of_irrefl after).has_min Set.univ
    ⟨⟨first, listed, .refl⟩, trivial⟩
  obtain ⟨further, inside, step⟩ := leads last.1 last.2.1
  exact final ⟨further, inside, last.2.2.tail step⟩ trivial (.single step)

namespace Progress

variable {set : ModelSet} {placed : Ranks} {left : List Pending}

/-- References lead from a declaration with a rank down to other ranks. -/
theorem lower_of_transGen (progress : Progress set placed left) {first second : ClassRef}
    (leads : Relation.TransGen (RefersTo set) first second) {rank : Nat}
    (ranked : Entries.get? placed first = some rank) :
    ∃ lower < rank, Entries.get? placed second = some lower := by
  induction leads with
  | single refers => exact progress.supported _ _ ranked _ refers
  | tail _ refers ih =>
    obtain ⟨middle, below, found⟩ := ih
    obtain ⟨lower, further, found'⟩ := progress.supported _ _ found _ refers
    exact ⟨lower, further.trans below, found'⟩

/-- What is left runs into a circle, and nothing else does. -/
theorem reachesCycle_iff (progress : Progress set placed left)
    (stuck : ∀ item ∈ left, ¬isReady (declared set) placed item) {name : ClassRef}
    (known : name ∈ declared set) : ReachesCycle set name ↔ name ∈ left.map Pending.owner := by
  constructor
  · rintro ⟨turn, leads, circle⟩
    rcases List.mem_append.mp (progress.divided.mem_iff.mpr known) with ranked | waits
    · obtain ⟨rank, found⟩ := Entries.exists_get? ranked
      obtain ⟨start, found⟩ : ∃ start, Entries.get? placed turn = some start := by
        rcases Relation.reflTransGen_iff_eq_or_transGen.mp leads with rfl | leads
        · exact ⟨rank, found⟩
        · obtain ⟨lower, -, found⟩ := progress.lower_of_transGen leads found
          exact ⟨lower, found⟩
      obtain ⟨lower, below, found'⟩ := progress.lower_of_transGen circle found
      rw [found'] at found
      exact absurd (Option.some.inj found) (Nat.ne_of_lt below)
    · exact waits
  · refine exists_circle fun first waits => ?_
    obtain ⟨item, inside, rfl⟩ := List.mem_map.mp waits
    have unready := stuck item inside
    rw [isReady_iff] at unready
    push Not at unready
    obtain ⟨need, needed, declares, unranked⟩ := unready
    have waits := (List.mem_append.mp (progress.divided.mem_iff.mpr declares)).resolve_left unranked
    exact ⟨need, waits, refersTo_of_need (progress.inOrder.subset inside) needed declares⟩

end Progress

theorem rankLe_trans (first second third : Option Nat)
    (left : ModuleText.rankLe first second = true)
    (right : ModuleText.rankLe second third = true) : ModuleText.rankLe first third = true := by
  cases first <;> cases second <;> cases third <;> simp_all [ModuleText.rankLe]
  omega

theorem rankLe_total (first second : Option Nat) :
    (ModuleText.rankLe first second || ModuleText.rankLe second first) = true := by
  cases first <;> cases second <;> simp [ModuleText.rankLe]
  omega

/-- Two classes have different ranks, so one of them comes first. -/
theorem CountUp.before_of_rankLe {ranks : Ranks} (counted : CountUp ranks)
    {first second : ClassRef} (ranked : first ∈ Entries.keys ranks)
    (ranked' : second ∈ Entries.keys ranks) (other : first ≠ second)
    (le : ModuleText.rankLe (Entries.get? ranks first) (Entries.get? ranks second) = true) :
    Before ranks first second := by
  obtain ⟨lower, found⟩ := Entries.exists_get? ranked
  obtain ⟨higher, found'⟩ := Entries.exists_get? ranked'
  rw [found, found'] at le
  have different : lower ≠ higher := by
    rintro rfl
    have once : (ranks.map Prod.snd).Nodup := counted ▸ List.nodup_range
    have same := List.inj_on_of_nodup_map once (Entries.mem_of_get? found)
      (Entries.mem_of_get? found') rfl
    exact other (congrArg Prod.fst same)
  have le : lower ≤ higher := by simpa [ModuleText.rankLe] using le
  exact ⟨lower, higher, found, found', by omega⟩

theorem arranged_pairwise {set : ModelSet} (distinct : (declared set).Nodup) {ranks : Ranks}
    (counted : CountUp ranks) (keys : (Entries.keys ranks).Perm (declared set)) {home : Module}
    (present : home ∈ set) : (ModuleText.arranged ranks home).Pairwise fun first second =>
      Before ranks ⟨home.path, first.name⟩ ⟨home.path, second.name⟩ := by
  let owner (model : Model) : ClassRef := ⟨home.path, model.name⟩
  have perm : (ModuleText.arranged ranks home).Perm home.models := List.mergeSort_perm _ _
  have sorted : (ModuleText.arranged ranks home).Pairwise fun first second =>
      ModuleText.rankLe (Entries.get? ranks (owner first))
        (Entries.get? ranks (owner second)) = true := by
    refine List.pairwise_mergeSort (fun first second third left right => ?_)
      (fun first second => ?_) home.models
    · exact rankLe_trans _ _ _ left right
    · exact rankLe_total _ _
  have apart : ((ModuleText.arranged ranks home).map owner).Nodup := by
    rw [(perm.map owner).nodup_iff]
    exact (List.nodup_flatMap.mp distinct).1 home present
  have ranked : ∀ model ∈ ModuleText.arranged ranks home, owner model ∈ Entries.keys ranks :=
    fun model inside => keys.mem_iff.mpr (List.mem_flatMap.mpr
      ⟨home, present, List.mem_map_of_mem (perm.mem_iff.mp inside)⟩)
  rw [List.Nodup, List.pairwise_map] at apart
  refine (sorted.and apart).imp_of_mem fun {first second} here there both => ?_
  exact counted.before_of_rankLe (ranked first here) (ranked second there) both.2 both.1

/-- The ranks are a topological order of the declarations as far as there is one. -/
structure Ranked (set : ModelSet) (ranks : Ranks) : Prop where
  /-- Just the declared classes have a rank. -/
  keys : (Entries.keys ranks).Perm (declared set)
  /-- The ranks count from zero, none of them twice. -/
  counted : ranks.map Prod.snd = List.range (declared set).length
  /-- A class that runs into no circle comes after all that it refers to. -/
  supported : ∀ first second, ¬ReachesCycle set first → RefersTo set first second →
    Before ranks second first
  /-- What runs into a circle comes after all that does not. -/
  circlesLast : ∀ first ∈ declared set, ∀ second ∈ declared set,
    ¬ReachesCycle set first → ReachesCycle set second → Before ranks first second
  /-- Among each other, these classes keep the order of the set. -/
  circlesInOrder : (declared set).Pairwise fun first second =>
    ReachesCycle set first → ReachesCycle set second → Before ranks first second
  /-- The source of a module has its classes by increasing rank, whatever its style: their lines
  stand in the text in that order, and nothing is behind them. -/
  listed : ∀ home ∈ set, ∃ models : List Model, models.Perm home.models ∧
    (models.Pairwise fun first second =>
      Before ranks ⟨home.path, first.name⟩ ⟨home.path, second.name⟩) ∧
    ∀ style, moduleText style ranks home =
      ModuleText.assemble
        (ModuleText.importGroups (ModuleText.uses style home) (ModuleText.imports home))
        (models.map fun model =>
          (ClassText.ofModel style home.path (ModuleText.imports home) model).lines) ∧
      ∃ start, moduleText style ranks home = start ++ String.join (models.map fun model =>
        "\n\n" ++ ModuleText.joinLines
          (ClassText.ofModel style home.path (ModuleText.imports home) model).lines)

/-- The ranks of a set whose classes are pairwise different. -/
theorem declarationOrder_ranked (set : ModelSet) (distinct : (declared set).Nodup) :
    Ranked set (declarationOrder set) := by
  obtain ⟨placed, left, progress, stuck, settled⟩ := settle_spec (Progress.start set) distinct
  let circular := left.map Pending.owner
  have order_eq : declarationOrder set = placed ++ circular.zipIdx placed.length := by
    rw [← settled, ← owners_pending]
    rfl
  have keys_eq : Entries.keys (declarationOrder set) = Entries.keys placed ++ circular := by
    rw [order_eq, Entries.keys_append, Entries.keys, Entries.keys, List.zipIdx_map_fst]
  have keys : (Entries.keys (declarationOrder set)).Perm (declared set) :=
    keys_eq ▸ progress.divided
  have counted : CountUp (declarationOrder set) := order_eq ▸ progress.counted.append circular
  have ascending := counted.pairwise (keys.nodup_iff.mpr distinct)
  rw [keys_eq, List.pairwise_append] at ascending
  obtain ⟨-, among_circular, across⟩ := ascending
  have placed_of_free : ∀ name ∈ declared set, ¬ReachesCycle set name →
      name ∈ Entries.keys placed := fun name known free =>
    (List.mem_append.mp (progress.divided.mem_iff.mpr known)).resolve_right
      (mt (progress.reachesCycle_iff stuck known).mpr free)
  constructor
  case keys => exact keys
  case counted => rw [counted, ← keys.length_eq, Entries.keys, List.length_map]
  case supported =>
    intro first second free refers
    obtain ⟨item, inside, rfl, -⟩ := exists_item refers
    have known : item.owner ∈ declared set := owners_pending set ▸ List.mem_map_of_mem inside
    obtain ⟨rank, found⟩ := Entries.exists_get? (placed_of_free _ known free)
    obtain ⟨lower, below, found'⟩ := progress.supported _ _ found _ refers
    refine ⟨lower, rank, ?_, ?_, below⟩
    · rw [order_eq, Entries.get?_append, found', Option.some_or]
    · rw [order_eq, Entries.get?_append, found, Option.some_or]
  case circlesLast =>
    intro first known second known' free circles
    exact across _ (placed_of_free first known free) _
      ((progress.reachesCycle_iff stuck known').mp circles)
  case circlesInOrder =>
    have part : circular.Sublist (declared set) :=
      owners_pending set ▸ progress.inOrder.map Pending.owner
    rw [← filter_of_sublist part distinct, List.pairwise_filter] at among_circular
    refine among_circular.imp_of_mem fun {first second} known known' before circles circles' => ?_
    exact before (decide_eq_true ((progress.reachesCycle_iff stuck known).mp circles))
      (decide_eq_true ((progress.reachesCycle_iff stuck known').mp circles'))
  case listed =>
    intro home present
    refine ⟨ModuleText.arranged (declarationOrder set) home, List.mergeSort_perm _ _,
      arranged_pairwise distinct counted keys present, fun style => ?_⟩
    have text_eq := ModuleText.moduleText_eq style (declarationOrder set) home
    rw [List.map_map] at text_eq
    refine ⟨text_eq, ModuleText.assemble (ModuleText.importGroups (ModuleText.uses style home)
      (ModuleText.imports home)) [], ?_⟩
    rw [text_eq, ModuleText.assemble, ModuleText.assemble, List.map_map, List.map_nil,
      String.join_nil, String.append_empty]
    rfl

/-- A class that refers to itself and to a circle of two, a leaf of another module, and a class that
refers to the leaf and to a name nothing declares. -/
def circles : ModelSet :=
  let links (name : String) (targets : List ClassRef) : Model :=
    .alias ⟨name, none, .union (.string :: targets.map .ref)⟩
  [⟨["a"], [links "Top" [⟨["a"], "Top"⟩, ⟨["a"], "Left"⟩],
      links "Left" [⟨["b"], "Right"⟩],
      links "Stem" [⟨["b"], "Leaf"⟩, ⟨["b"], "Elsewhere"⟩]]⟩,
    ⟨["b"], [links "Right" [⟨["a"], "Left"⟩], links "Leaf" []]⟩]

theorem circles_ranked : (declared circles).Nodup ∧
    declarationOrder circles = [(⟨["b"], "Leaf"⟩, 0), (⟨["a"], "Stem"⟩, 1), (⟨["a"], "Top"⟩, 2),
      (⟨["a"], "Left"⟩, 3), (⟨["b"], "Right"⟩, 4)] ∧
    Ranked circles (declarationOrder circles) :=
  ⟨by decide, by cbv, declarationOrder_ranked circles (by decide)⟩

end ResourceModels.Code.DeclarationOrder

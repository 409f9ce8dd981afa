/-
This file is about finding the repeated keys of a list by a look at the key before. A marked list
says of each item whether it repeats a key; the marks are exact when they say that the key has come
before, and sound when they say it of no other. Marks that only compare with the key before are
always sound. They are exact for the keys that count when those are gathered: nothing else comes
between two occurrences of such a key, whether it counts itself or not.
-/

import Mathlib.Data.List.Basic

namespace Repeats

variable {Item Key : Type*} (key : Item → Key)

section Marks

/-- The marks say which keys have come before, in the list or among the keys seen. -/
def Exact : List Key → List (Item × Bool) → Prop
  | _, [] => True
  | seen, (item, mark) :: marks =>
    (mark = true ↔ key item ∈ seen) ∧ Exact (key item :: seen) marks

/-- Only a key that has come before is marked. -/
def Sound : List Key → List (Item × Bool) → Prop
  | _, [] => True
  | seen, (item, mark) :: marks =>
    (mark = true → key item ∈ seen) ∧ Sound (key item :: seen) marks

/-- The keys that are not marked. -/
def fresh (marks : List (Item × Bool)) : List Key :=
  (marks.filter fun marked => !marked.2).map fun marked => key marked.1

variable {key}

theorem fresh_cons_marked (item : Item) (marks : List (Item × Bool)) :
    fresh key ((item, true) :: marks) = fresh key marks := rfl

theorem fresh_cons_unmarked (item : Item) (marks : List (Item × Bool)) :
    fresh key ((item, false) :: marks) = key item :: fresh key marks := rfl

/-- Marks are exact when at every place of the list they are. -/
theorem exact_iff_split {seen : List Key} {marks : List (Item × Bool)} :
    Exact key seen marks ↔ ∀ before item mark after, marks = before ++ (item, mark) :: after →
      (mark = true ↔ key item ∈ seen ∨ key item ∈ before.map fun marked => key marked.1) := by
  induction marks generalizing seen with
  | nil =>
    refine iff_of_true trivial fun before item mark after split => ?_
    exact absurd split (List.append_ne_nil_of_right_ne_nil _ (List.cons_ne_nil _ _)).symm
  | cons first marks inductionHypothesis =>
    obtain ⟨item, mark⟩ := first
    rw [Exact, inductionHypothesis]
    constructor
    · rintro ⟨here, later⟩ before other otherMark after split
      cases before with
      | nil =>
        obtain ⟨same, -⟩ := List.cons.inj split
        cases same
        rw [here, List.map_nil, or_iff_left List.not_mem_nil]
      | cons _ before =>
        obtain ⟨rfl, rest⟩ := List.cons.inj split
        rw [later before other otherMark after rest, List.map_cons, List.mem_cons, List.mem_cons,
          or_right_comm, or_comm, or_left_comm, or_comm (a := _ = _), or_comm]
    · intro everywhere
      refine ⟨?_, fun before other otherMark after split => ?_⟩
      · rw [everywhere [] item mark marks rfl, List.map_nil, or_iff_left List.not_mem_nil]
      · rw [everywhere ((item, mark) :: before) other otherMark after (by rw [split]; rfl),
          List.map_cons, List.mem_cons, List.mem_cons]
        tauto

theorem mem_fresh {seen : List Key} {marks : List (Item × Bool)} (sound : Sound key seen marks)
    {wanted : Key} (unseen : wanted ∉ seen) :
    wanted ∈ fresh key marks ↔ wanted ∈ marks.map fun marked => key marked.1 := by
  induction marks generalizing seen with
  | nil => exact Iff.rfl
  | cons first marks inductionHypothesis =>
    obtain ⟨item, mark⟩ := first
    obtain ⟨here, later⟩ := sound
    rw [List.map_cons, List.mem_cons]
    by_cases same : wanted = key item
    · cases mark with
      | true => exact absurd (same ▸ here rfl) unseen
      | false =>
        rw [fresh_cons_unmarked, List.mem_cons]
        exact iff_of_true (Or.inl same) (Or.inl same)
    · have rest := inductionHypothesis later (List.not_mem_cons_of_ne_of_not_mem same unseen)
      rw [or_iff_right same, ← rest]
      cases mark with
      | true => exact Iff.rfl
      | false => rw [fresh_cons_unmarked, List.mem_cons, or_iff_right same]

/-- Sound marks are exact when what they leave has no key twice, and none that was seen. -/
theorem exact_iff_nodup_fresh {seen : List Key} {marks : List (Item × Bool)}
    (sound : Sound key seen marks) :
    Exact key seen marks ↔ (fresh key marks).Nodup ∧ ∀ wanted ∈ seen, wanted ∉ fresh key marks := by
  induction marks generalizing seen with
  | nil => exact iff_of_true trivial ⟨List.nodup_nil, fun _ _ => List.not_mem_nil⟩
  | cons first marks inductionHypothesis =>
    obtain ⟨item, mark⟩ := first
    obtain ⟨here, later⟩ := sound
    rw [Exact, inductionHypothesis later, List.forall_mem_cons]
    cases mark with
    | true =>
      have member := here rfl
      rw [fresh_cons_marked]
      constructor
      · rintro ⟨-, distinct, -, unseen⟩
        exact ⟨distinct, unseen⟩
      · rintro ⟨distinct, unseen⟩
        exact ⟨iff_of_true rfl member, distinct, unseen _ member, unseen⟩
    | false =>
      rw [fresh_cons_unmarked, List.nodup_cons]
      constructor
      · rintro ⟨unmarked, distinct, once, unseen⟩
        refine ⟨⟨once, distinct⟩, fun wanted member =>
          List.not_mem_cons_of_ne_of_not_mem ?_ (unseen wanted member)⟩
        rintro rfl
        exact absurd (unmarked.mpr member) Bool.false_ne_true
      · rintro ⟨⟨once, distinct⟩, unseen⟩
        refine ⟨⟨fun wrong => absurd wrong Bool.false_ne_true, fun member => ?_⟩, distinct, once,
          fun wanted member inFresh => unseen wanted member (List.mem_cons_of_mem _ inFresh)⟩
        exact absurd List.mem_cons_self (unseen _ member)

end Marks

section Gathering

variable (counts : Key → Bool)

/-- Nothing comes between two occurrences of a key that counts. -/
def Gathered (keys : List Key) : Prop :=
  ∀ wanted other, counts wanted = true → [wanted, other, wanted].Sublist keys → other = wanted

variable {counts}

theorem gathered_nil : Gathered counts [] := fun _ _ _ sublist =>
  absurd (List.sublist_nil.mp sublist) (List.cons_ne_nil _ _)

/-- Gathered keys stay gathered with one that was the last of them or has not come. -/
theorem gathered_cons {wanted : Key} {past : List Key} :
    Gathered counts (wanted :: past) ↔ Gathered counts past ∧
      (counts wanted = true → wanted ∈ past → past.head? = some wanted) := by
  constructor
  · intro gathered
    refine ⟨fun first other does sublist => gathered first other does (sublist.cons _),
      fun does member => ?_⟩
    cases past with
    | nil => exact absurd member List.not_mem_nil
    | cons other past =>
      obtain same | earlier := List.mem_cons.mp member
      · rw [same]
        rfl
      · have between : [wanted, other, wanted].Sublist (wanted :: other :: past) :=
          ((List.singleton_sublist.mpr earlier).cons_cons other).cons_cons wanted
        rw [gathered wanted other does between]
        rfl
  · rintro ⟨gathered, last⟩ first other does sublist
    obtain earlier | ⟨rfl, between⟩ := List.cons_sublist_cons'.mp sublist
    · exact gathered first other does earlier
    · have member : first ∈ past := between.subset (List.mem_cons_of_mem _ List.mem_cons_self)
      obtain ⟨before, rfl⟩ := List.head?_eq_some_iff.mp (last does member)
      obtain earlier | ⟨same, -⟩ := List.cons_sublist_cons'.mp between
      · exact gathered first other does (earlier.cons_cons first)
      · exact same

theorem gathered_reverse {keys : List Key} :
    Gathered counts keys.reverse ↔ Gathered counts keys := by
  refine forall₃_congr fun wanted other _ => ?_
  rw [← List.reverse_sublist, List.reverse_reverse]
  rfl

end Gathering

section LookBack

variable [DecidableEq Key]

/-- Each item with whether its key is the one before; `last` is the key before the first. -/
def marked : Option Key → List Item → List (Item × Bool)
  | _, [] => []
  | last, item :: items => (item, decide (last = some (key item))) :: marked (some (key item)) items

variable (counts : Key → Bool)

/-- The items whose key counts, with their marks. -/
def counted (last : Option Key) (items : List Item) : List (Item × Bool) :=
  (marked key last items).filter fun marked => counts (key marked.1)

variable {key counts}

theorem counted_cons_pos {last : Option Key} {item : Item} (items : List Item)
    (does : counts (key item) = true) :
    counted key counts last (item :: items) =
      (item, decide (last = some (key item))) :: counted key counts (some (key item)) items :=
  List.filter_cons_of_pos does

theorem counted_cons_neg {last : Option Key} {item : Item} (items : List Item)
    (not : ¬ counts (key item) = true) :
    counted key counts last (item :: items) = counted key counts (some (key item)) items :=
  List.filter_cons_of_neg not

/-- An item is marked for itself, before the others. -/
theorem counted_cons (last : Option Key) (item : Item) (items : List Item) :
    counted key counts last (item :: items) =
      counted key counts last [item] ++ counted key counts (some (key item)) items := by
  by_cases does : counts (key item) = true
  · rw [counted_cons_pos items does, counted_cons_pos [] does]
    rfl
  · rw [counted_cons_neg items does, counted_cons_neg [] does]
    rfl

omit [DecidableEq Key] in
theorem mem_head?_filter {past : List Key} {wanted : Key} (isLast : past.head? = some wanted)
    (does : counts wanted = true) : wanted ∈ past.filter counts :=
  List.mem_filter.mpr ⟨List.mem_of_mem_head? isLast, does⟩

/-- The keys that count and have been passed are those that are seen. -/
theorem sound_counted (past : List Key) (items : List Item) :
    Sound key (past.filter counts) (counted key counts past.head? items) := by
  induction items generalizing past with
  | nil => trivial
  | cons item items inductionHypothesis =>
    have rest := inductionHypothesis (key item :: past)
    by_cases does : counts (key item) = true
    · rw [List.filter_cons_of_pos does] at rest
      rw [counted_cons_pos items does]
      exact ⟨fun isLast => mem_head?_filter (of_decide_eq_true isLast) does, rest⟩
    · rw [List.filter_cons_of_neg does] at rest
      rw [counted_cons_neg items does]
      exact rest

/-- Marks that look at the key before are exact where the keys that count are gathered. -/
theorem exact_counted_iff_reverse (past : List Key) (items : List Item)
    (gathered : Gathered counts past) :
    Exact key (past.filter counts) (counted key counts past.head? items) ↔
      Gathered counts ((items.map key).reverse ++ past) := by
  induction items generalizing past with
  | nil => exact iff_of_true trivial gathered
  | cons item items inductionHypothesis =>
    rw [List.map_cons, List.reverse_cons, List.append_assoc, List.singleton_append]
    have kept (whole : Gathered counts ((items.map key).reverse ++ (key item :: past))) :
        Gathered counts (key item :: past) := fun wanted other does sublist =>
      whole wanted other does (sublist.trans (List.sublist_append_right _ _))
    by_cases does : counts (key item) = true
    · rw [counted_cons_pos items does, Exact]
      have rest := inductionHypothesis (key item :: past)
      rw [List.filter_cons_of_pos does] at rest
      constructor
      · rintro ⟨here, later⟩
        refine (rest (gathered_cons.mpr ⟨gathered, fun _ member => ?_⟩)).mp later
        exact of_decide_eq_true (here.mpr (List.mem_filter.mpr ⟨member, does⟩))
      · intro whole
        obtain ⟨-, last⟩ := gathered_cons.mp (kept whole)
        refine ⟨⟨fun isLast => mem_head?_filter (of_decide_eq_true isLast) does, fun member => ?_⟩,
          (rest (kept whole)).mpr whole⟩
        exact decide_eq_true (last does (List.mem_filter.mp member).1)
    · have rest := inductionHypothesis (key item :: past)
        (gathered_cons.mpr ⟨gathered, fun wrong => absurd wrong does⟩)
      rw [List.filter_cons_of_neg does] at rest
      rw [counted_cons_neg items does]
      exact rest

variable (items : List Item)

/-- Of a whole list, the marks that look at the key before are exact if and only if the keys that
count are gathered. -/
theorem exact_counted_iff :
    Exact key [] (counted key counts none items) ↔ Gathered counts (items.map key) := by
  have whole : Exact key ([].filter counts) (counted key counts none items) ↔
      Gathered counts ((items.map key).reverse ++ []) :=
    exact_counted_iff_reverse [] items gathered_nil
  rwa [List.append_nil, gathered_reverse] at whole

/-- What they leave unmarked has no key twice if and only if the keys that count are gathered. -/
theorem nodup_fresh_counted_iff :
    (fresh key (counted key counts none items)).Nodup ↔ Gathered counts (items.map key) := by
  have sound : Sound key [] (counted key counts none items) := sound_counted [] items
  rw [← exact_counted_iff, exact_iff_nodup_fresh sound]
  exact ⟨fun distinct => ⟨distinct, fun _ member => absurd member List.not_mem_nil⟩, And.left⟩

theorem map_marked (last : Option Key) : (marked key last items).map Prod.fst = items := by
  induction items generalizing last with
  | nil => rfl
  | cons item items inductionHypothesis => rw [marked, List.map_cons, inductionHypothesis]

theorem map_counted (last : Option Key) :
    (counted key counts last items).map Prod.fst = items.filter fun item => counts (key item) := by
  have whole : (marked key last items).map Prod.fst = items := map_marked items last
  nth_rewrite 2 [← whole]
  rw [List.filter_map]
  rfl

/-- Every key that counts is left unmarked somewhere. -/
theorem mem_fresh_counted {wanted : Key} :
    wanted ∈ fresh key (counted key counts none items) ↔
      counts wanted = true ∧ wanted ∈ items.map key := by
  have sound : Sound key [] (counted key counts none items) := sound_counted [] items
  rw [mem_fresh sound List.not_mem_nil]
  constructor
  · intro member
    obtain ⟨⟨item, mark⟩, inCounted, rfl⟩ := List.mem_map.mp member
    have inItems : item ∈ (counted key counts none items).map Prod.fst :=
      List.mem_map_of_mem inCounted
    rw [map_counted, List.mem_filter] at inItems
    exact ⟨inItems.2, List.mem_map_of_mem inItems.1⟩
  · rintro ⟨does, member⟩
    obtain ⟨item, inItems, rfl⟩ := List.mem_map.mp member
    have inCounted : item ∈ (counted key counts none items).map Prod.fst := by
      rw [map_counted, List.mem_filter]
      exact ⟨inItems, does⟩
    obtain ⟨marked, inMarked, rfl⟩ := List.mem_map.mp inCounted
    exact List.mem_map_of_mem inMarked

end LookBack

end Repeats

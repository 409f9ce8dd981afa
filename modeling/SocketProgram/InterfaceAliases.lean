/-
This file is about what `get_ifi_info` makes of the names of the records: an interface that has come
before is left out of the list, or marked as an alias. All the loop knows of what came before is one
name, of the last record with the family it was asked for, up or not. So the list is right where no
such record stands between two records of an interface that is up; and where one does, the interface
is in the list twice, or twice without the mark.
-/

import SocketProgram.InterfaceWalk
import SocketProgram.Library.Repeats

namespace SocketProgram.GetIfiInfo

open Repeats

/-! ### What is listed -/

section Listed

variable {size : Nat} (asked : Asked) (answers : Answers)

/-- The list `get_ifi_info` makes of these records. -/
def listed (unset : List Byte) (records : List (Ifreq size)) : List IfiInfo :=
  (records.foldl (examine asked answers) ⟨0 :: unset, []⟩).entries

/-- The records of the family that was asked for. -/
def desired (records : List (Ifreq size)) : List (Ifreq size) :=
  records.filter fun record => (record.family : Int) = asked.family

theorem desired_cons_pos {record : Ifreq size} (records : List (Ifreq size))
    (wanted : (record.family : Int) = asked.family) :
    desired asked (record :: records) = record :: desired asked records :=
  List.filter_cons_of_pos (decide_eq_true wanted)

theorem desired_cons_neg {record : Ifreq size} (records : List (Ifreq size))
    (other : (record.family : Int) ≠ asked.family) :
    desired asked (record :: records) = desired asked records :=
  List.filter_cons_of_neg fun wrong => other (of_decide_eq_true wrong)

/-- The interface of this name is up. -/
def isUp (name : List Byte) : Bool := answers.flags name &&& iffUp ≠ 0

/-- The entry of a record that repeats a name, or that does not. -/
def entry (marked : Ifreq size × Bool) : IfiInfo :=
  newEntry answers marked.1.cutName marked.1.family (if marked.2 then ifiAlias else 0)
    ((addressSize marked.1.family).map marked.1.address.take)

/-- A record that repeats a name has an entry if aliases were asked for. -/
def kept (marked : Ifreq size × Bool) : Bool := asked.doaliases ≠ 0 ∨ marked.2 = false

@[simp] theorem entry_name (marked : Ifreq size × Bool) :
    (entry answers marked).name = marked.1.base := by
  obtain ⟨-, terminated⟩ := marked.1.cut_name
  have last := cstring_take terminated
  rw [marked.1.length_cutName] at last
  exact last.trans marked.1.cstring_cutName

theorem kept_iff (marked : Ifreq size × Bool) :
    kept asked marked = true ↔ asked.doaliases ≠ 0 ∨ marked.2 = false := decide_eq_true_iff

theorem isUp_iff (name : List Byte) :
    isUp answers name = true ↔ answers.flags name &&& iffUp ≠ 0 := decide_eq_true_iff

theorem entry_alias (marked : Ifreq size × Bool) :
    (entry answers marked).myflags &&& ifiAlias = 0 ↔ marked.2 = false := by
  obtain ⟨record, mark⟩ := marked
  cases mark with
  | false => exact iff_of_true (Nat.zero_and _) rfl
  | true => exact iff_of_false (by decide : ifiAlias &&& ifiAlias ≠ 0) Bool.noConfusion

/-- `lastname` holds this name, or none yet. -/
def Memo.Remembers (memo : Memo) (last : Option (List Byte)) : Prop :=
  cstring (memo.lastname.take ifnamsiz) = last.getD []

theorem Memo.Remembers.same_iff {memo : Memo} {last : Option (List Byte)}
    (remembers : memo.Remembers last) (record : Ifreq size) :
    cstring (memo.lastname.take ifnamsiz) = record.base ↔ last = some record.base := by
  rw [remembers]
  cases last with
  | none => exact iff_of_false (Ne.symm record.named) (Option.some_ne_none _).symm
  | some name => exact Option.some_inj.symm

theorem remembers_cutName (record : Ifreq size) (entries : List IfiInfo) :
    (Memo.mk record.cutName entries).Remembers (some record.base) := by
  show cstring (record.cutName.take ifnamsiz) = record.base
  rw [← record.length_cutName, List.take_length]
  exact record.cstring_cutName

/-- What one record adds to the list and to what is remembered. -/
theorem examine_desired {memo : Memo} {last : Option (List Byte)}
    (remembers : memo.Remembers last) (record : Ifreq size)
    (wanted : (record.family : Int) = asked.family) :
    (examine asked answers memo record).Remembers (some record.base) ∧
      (examine asked answers memo record).entries = memo.entries ++
        ((counted Ifreq.base (isUp answers) last [record]).filter (kept asked)).map
          (entry answers) := by
  have same := remembers.same_iff record
  rw [examine, if_neg (not_not.mpr wanted)]
  by_cases skipped : cstring (memo.lastname.take ifnamsiz) = record.base ∧ asked.doaliases = 0
  · obtain ⟨isLast, none⟩ := skipped
    rw [if_pos ⟨isLast, none⟩]
    refine ⟨isLast, ?_⟩
    -- the record is marked, and aliases were not asked for
    have marks (marked : Ifreq size × Bool)
        (member : marked ∈ counted Ifreq.base (isUp answers) last [record]) :
        ¬ kept asked marked = true := by
      have itself := List.mem_singleton.mp (List.mem_filter.mp member).1
      rw [kept_iff, itself]
      rintro (wrong | wrong)
      · exact wrong none
      · exact of_decide_eq_false wrong (same.mp isLast)
    rw [List.filter_eq_nil_iff.mpr marks]
    exact (List.append_nil _).symm
  rw [if_neg skipped]
  by_cases up : answers.flags record.base &&& iffUp = 0
  · rw [if_pos up]
    refine ⟨remembers_cutName record memo.entries, ?_⟩
    have down : ¬ isUp answers record.base = true := fun isUp =>
      (isUp_iff answers record.base).mp isUp up
    rw [counted_cons_neg [] down]
    exact (List.append_nil _).symm
  · rw [if_neg up]
    refine ⟨remembers_cutName record _, congrArg (memo.entries ++ ·) ?_⟩
    have keeps : kept asked (record, decide (last = some record.base)) = true := by
      rw [kept_iff, decide_eq_false_iff_not, ← same, or_comm]
      exact not_and_or.mp skipped
    have isUp : isUp answers record.base = true := (isUp_iff answers record.base).mpr up
    rw [counted_cons_pos [] isUp, List.filter_cons_of_pos keeps, List.map_cons, entry]
    simp only [same, decide_eq_true_eq]
    rfl

/-- The list is made of the records that count and are kept, with the marks that `lastname`
gives. -/
theorem foldl_examine (records : List (Ifreq size)) {memo : Memo} {last : Option (List Byte)}
    (remembers : memo.Remembers last) :
    (records.foldl (examine asked answers) memo).entries = memo.entries ++
      ((counted Ifreq.base (isUp answers) last (desired asked records)).filter (kept asked)).map
        (entry answers) := by
  induction records generalizing memo last with
  | nil => exact (List.append_nil _).symm
  | cons record records inductionHypothesis =>
    rw [List.foldl_cons]
    by_cases wanted : (record.family : Int) = asked.family
    · obtain ⟨later, entries⟩ := examine_desired asked answers remembers record wanted
      rw [desired_cons_pos asked records wanted, counted_cons, inductionHypothesis later, entries,
        List.append_assoc, List.filter_append, List.map_append]
    · have same : examine asked answers memo record = memo := if_pos wanted
      rw [desired_cons_neg asked records wanted, same]
      exact inductionHypothesis remembers

theorem listed_eq (unset : List Byte) (records : List (Ifreq size)) :
    listed asked answers unset records =
      ((counted Ifreq.base (isUp answers) none (desired asked records)).filter (kept asked)).map
        (entry answers) := by
  have nothing : (Memo.mk (0 :: unset) []).Remembers none := rfl
  exact (foldl_examine asked answers records nothing).trans (List.nil_append _)

/-- The records of the family that are of an interface that is up. -/
def listable (records : List (Ifreq size)) : List (Ifreq size) :=
  (desired asked records).filter fun record => isUp answers record.base

/-- The name and the address in a record, as they are copied. -/
def Ifreq.shown (record : Ifreq size) : List Byte × Option (List Byte) :=
  (record.base, (addressSize record.family).map record.address.take)

/-- The name and the address in an entry. -/
def IfiInfo.shown (entry : IfiInfo) : List Byte × Option (List Byte) := (entry.name, entry.addr)

/-- What the list should be: the entries are those of records in the buffer, in its order, and all
of them if aliases were asked for; the interfaces in it are those that are up and have an address
of the family; without aliases each of them is in it once, and with aliases the first entry of each
is the only one without the mark. -/
structure ListedRight (records : List (Ifreq size)) (entries : List IfiInfo) : Prop where
  ordered : (entries.map IfiInfo.shown).Sublist
    ((listable asked answers records).map Ifreq.shown)
  complete : asked.doaliases ≠ 0 →
    entries.map IfiInfo.shown = (listable asked answers records).map Ifreq.shown
  interfaces : ∀ name, name ∈ entries.map IfiInfo.name ↔
    ∃ record ∈ records, (record.family : Int) = asked.family ∧
      answers.flags record.base &&& iffUp ≠ 0 ∧ record.base = name
  once : asked.doaliases = 0 → (entries.map IfiInfo.name).Nodup
  aliases : asked.doaliases ≠ 0 → ∀ before entry after, entries = before ++ entry :: after →
    (entry.myflags &&& ifiAlias = 0 ↔ entry.name ∉ before.map IfiInfo.name)

/-! ### What is right about it -/

variable (unset : List Byte) (records : List (Ifreq size))

/-- The records that are listed if aliases are asked for, each with its mark. -/
def candidates : List (Ifreq size × Bool) :=
  counted Ifreq.base (isUp answers) none (desired asked records)

theorem map_candidates : (candidates asked answers records).map Prod.fst =
    listable asked answers records :=
  map_counted (desired asked records) none

theorem listed_of_aliases (all : asked.doaliases ≠ 0) :
    listed asked answers unset records =
      (candidates asked answers records).map (entry answers) := by
  rw [listed_eq, List.filter_eq_self.mpr fun marked _ => (kept_iff asked marked).mpr (Or.inl all)]
  rfl

/-- Without aliases what is listed is what has no mark. -/
theorem names_listed (none : asked.doaliases = 0) :
    (listed asked answers unset records).map IfiInfo.name =
      fresh Ifreq.base (candidates asked answers records) := by
  have same : kept asked = fun marked : Ifreq size × Bool => !marked.2 := by
    funext marked
    rw [Bool.eq_iff_iff, kept_iff, Bool.not_eq_true']
    exact or_iff_right (not_not.mpr none)
  rw [listed_eq, same, List.map_map, fresh]
  exact List.map_congr_left fun marked _ => entry_name answers marked

theorem entry_shown (marked : Ifreq size × Bool) :
    (entry answers marked).shown = marked.1.shown :=
  Prod.ext (entry_name answers marked) rfl

theorem ordered_listed : ((listed asked answers unset records).map IfiInfo.shown).Sublist
    ((listable asked answers records).map Ifreq.shown) := by
  have shown : IfiInfo.shown ∘ entry answers =
      fun marked : Ifreq size × Bool => marked.1.shown := funext (entry_shown answers)
  rw [listed_eq, List.map_map, shown, ← map_candidates, List.map_map]
  exact List.filter_sublist.map fun marked : Ifreq size × Bool => marked.1.shown

theorem complete_listed (all : asked.doaliases ≠ 0) :
    (listed asked answers unset records).map IfiInfo.shown =
      (listable asked answers records).map Ifreq.shown := by
  rw [listed_of_aliases asked answers unset records all, ← map_candidates, List.map_map,
    List.map_map]
  exact List.map_congr_left fun marked _ => entry_shown answers marked

/-- Every interface that is up and has an address of the family is in the list. -/
theorem interfaces_listed (name : List Byte) :
    name ∈ (listed asked answers unset records).map IfiInfo.name ↔
      ∃ record ∈ records, (record.family : Int) = asked.family ∧
        answers.flags record.base &&& iffUp ≠ 0 ∧ record.base = name := by
  constructor
  · intro member
    obtain ⟨listedEntry, inListed, rfl⟩ := List.mem_map.mp member
    have inShown := (ordered_listed asked answers unset records).subset
      (List.mem_map_of_mem inListed)
    obtain ⟨record, inListable, same⟩ := List.mem_map.mp inShown
    obtain ⟨inDesired, up⟩ := List.mem_filter.mp inListable
    obtain ⟨inRecords, wanted⟩ := List.mem_filter.mp inDesired
    exact ⟨record, inRecords, of_decide_eq_true wanted, (isUp_iff answers _).mp up,
      congrArg Prod.fst same⟩
  · rintro ⟨record, member, wanted, up, rfl⟩
    have inDesired : record ∈ desired asked records :=
      List.mem_filter.mpr ⟨member, decide_eq_true wanted⟩
    have isFresh : record.base ∈ fresh Ifreq.base (candidates asked answers records) :=
      (mem_fresh_counted (desired asked records)).mpr
        ⟨(isUp_iff answers _).mpr up, List.mem_map_of_mem inDesired⟩
    obtain ⟨marked, unmarked, same⟩ := List.mem_map.mp isFresh
    obtain ⟨inCandidates, unmarked⟩ := List.mem_filter.mp unmarked
    rw [← same, ← entry_name answers, listed_eq]
    have keeps : kept asked marked = true :=
      (kept_iff asked marked).mpr (Or.inr ((Bool.not_eq_true' _).mp unmarked))
    exact List.mem_map_of_mem (List.mem_map_of_mem (List.mem_filter.mpr ⟨inCandidates, keeps⟩))

/-! ### What is not -/

/-- The names of an interface that is up stand together among those of the family. -/
def NamesGathered : Prop :=
  ∀ name other, answers.flags name &&& iffUp ≠ 0 →
    [name, other, name].Sublist ((desired asked records).map Ifreq.base) → other = name

theorem gathered_iff : Gathered (isUp answers) ((desired asked records).map Ifreq.base) ↔
    NamesGathered asked answers records :=
  forall₂_congr fun name _ => imp_congr (isUp_iff answers name) Iff.rfl

theorem once_iff (none : asked.doaliases = 0) :
    ((listed asked answers unset records).map IfiInfo.name).Nodup ↔
      NamesGathered asked answers records := by
  rw [names_listed asked answers unset records none, ← gathered_iff]
  exact nodup_fresh_counted_iff (desired asked records)

theorem names_entry (marks : List (Ifreq size × Bool)) :
    (marks.map (entry answers)).map IfiInfo.name = marks.map fun marked => marked.1.base := by
  rw [List.map_map]
  exact List.map_congr_left fun marked _ => entry_name answers marked

/-- An entry is marked as it should be when its mark says whether its name has come before. -/
theorem entry_marked_iff (marked : Ifreq size × Bool) (before : List (Ifreq size × Bool)) :
    ((entry answers marked).myflags &&& ifiAlias = 0 ↔
      (entry answers marked).name ∉ (before.map (entry answers)).map IfiInfo.name) ↔
    (marked.2 = true ↔ marked.1.base ∈ before.map fun marked => marked.1.base) := by
  rw [entry_alias, entry_name, names_entry, ← Bool.not_eq_true, not_iff_not]

/-- The marks are right where they say which names have come before. -/
theorem aliases_iff (all : asked.doaliases ≠ 0) :
    (∀ before entry after, listed asked answers unset records = before ++ entry :: after →
      (entry.myflags &&& ifiAlias = 0 ↔ entry.name ∉ before.map IfiInfo.name)) ↔
      NamesGathered asked answers records := by
  rw [listed_of_aliases asked answers unset records all, ← gathered_iff,
    ← exact_counted_iff, exact_iff_split]
  constructor
  · intro right before item mark after split
    have splitEntries : (candidates asked answers records).map (entry answers) =
        before.map (entry answers) ++ entry answers (item, mark) :: after.map (entry answers) := by
      rw [candidates, split, List.map_append, List.map_cons]
    rw [or_iff_right List.not_mem_nil]
    exact (entry_marked_iff answers (item, mark) before).mp (right _ _ _ splitEntries)
  · intro exact' before listedEntry after split
    obtain ⟨marksBefore, marksFrom, splitMarks, rfl, fromHere⟩ := List.map_eq_append_iff.mp split
    obtain ⟨marked, marksAfter, rfl, rfl, rfl⟩ := List.map_eq_cons_iff.mp fromHere
    have right := exact' marksBefore marked.1 marked.2 marksAfter splitMarks
    rw [or_iff_right List.not_mem_nil] at right
    exact (entry_marked_iff answers marked marksBefore).mpr right

/-- The list is what it should be if and only if no record of the family stands between two of an
interface that is up, and has another name. -/
theorem listedRight_iff :
    ListedRight asked answers records (listed asked answers unset records) ↔
      ∀ name other, answers.flags name &&& iffUp ≠ 0 →
        [name, other, name].Sublist ((desired asked records).map Ifreq.base) → other = name := by
  constructor
  · intro right
    by_cases none : asked.doaliases = 0
    · exact (once_iff asked answers unset records none).mp (right.once none)
    · exact (aliases_iff asked answers unset records none).mp (right.aliases none)
  · intro gathered
    exact {
      ordered := ordered_listed asked answers unset records
      complete := complete_listed asked answers unset records
      interfaces := interfaces_listed asked answers unset records
      once := fun none => (once_iff asked answers unset records none).mpr gathered
      aliases := fun all => (aliases_iff asked answers unset records all).mpr gathered }

end Listed

/-! ### In the buffer -/

/-- 32-bit Linux without `IPV6`, where a `struct ifreq` is a name and a `struct sockaddr`. -/
def ilp32 : Build := ⟨32, false⟩

/-- There the list is what the loop makes of the bytes, for any family but the one whose addresses
are longer than the record. -/
theorem walkThrough_listed (asked : Asked) (answers : Answers) (unset : List Byte)
    (records : List (Ifreq ilp32.sizeofIfreq)) (other : asked.family ≠ afInet6) :
    ∃ walk : Walk,
      walkThrough ilp32 asked answers (records.length + 1) (.initial (written records) unset) =
        (starts ilp32.sizeofIfreq records.length, .ends walk) ∧
      walk.entries = listed asked answers unset records := by
  refine walkThrough_records unset records fun record _ => ⟨?_, fun wanted _ => ?_⟩
  · have step : ilp32.addressLength record.family = 16 :=
      if_neg fun both => Bool.false_ne_true both.1
    rw [step]
    rfl
  · intro count size
    have notInet6 : record.family ≠ afInet6 := fun inet6 => other (by rw [← wanted, inet6])
    rw [addressSize, if_neg notInet6] at size
    split_ifs at size
    · cases size
      decide
    · cases size

/-- The record of `eth0` there. -/
def eth0 : Ifreq ilp32.sizeofIfreq :=
  .inet [101, 116, 104, 48] 0x0a000001#32 (by decide) (by decide) (by decide)

/-- The record of `eth1`. -/
def eth1 : Ifreq ilp32.sizeofIfreq :=
  .inet [101, 116, 104, 49] 0x0a000101#32 (by decide) (by decide) (by decide)

/-- The record of `eth0:1`. -/
def eth0Alias : Ifreq ilp32.sizeofIfreq :=
  .inet [101, 116, 104, 48, 58, 49] 0x0a000002#32 (by decide) (by decide) (by decide)

/-- The records of two interfaces and an alias in the buffer. -/
theorem walkThrough_listed_alias :
    ∃ walk : Walk,
      walkThrough ilp32 ⟨afInet, 1⟩ allUp 4
          (.initial (written [eth0, eth1, eth0Alias]) (List.replicate 15 0)) =
        ([0, 32, 64], .ends walk) ∧
      walk.entries = listed ⟨afInet, 1⟩ allUp (List.replicate 15 0) [eth0, eth1, eth0Alias] :=
  walkThrough_listed ⟨afInet, 1⟩ allUp (List.replicate 15 0) [eth0, eth1, eth0Alias] (by decide)

/-! ### An alias that comes late -/

/-- After `eth1` there is nothing left of `eth0`: it is in the list twice, and with aliases its
second entry has no mark. -/
theorem not_listedRight_lateAlias :
    (¬ ListedRight ⟨afInet, 0⟩ allUp [eth0, eth1, eth0Alias]
      (listed ⟨afInet, 0⟩ allUp (List.replicate 15 0) [eth0, eth1, eth0Alias])) ∧
    ¬ ListedRight ⟨afInet, 1⟩ allUp [eth0, eth1, eth0Alias]
      (listed ⟨afInet, 1⟩ allUp (List.replicate 15 0) [eth0, eth1, eth0Alias]) := by
  have apart (doaliases : Int) :
      ¬ NamesGathered ⟨afInet, doaliases⟩ allUp [eth0, eth1, eth0Alias] := by
    intro gathered
    have up : allUp.flags eth0.base &&& iffUp ≠ 0 := by decide
    have names : (desired ⟨afInet, doaliases⟩ [eth0, eth1, eth0Alias]).map Ifreq.base =
        [eth0.base, eth1.base, eth0.base] := rfl
    have same := gathered eth0.base eth1.base up (names ▸ List.Sublist.refl _)
    exact absurd same (by decide)
  constructor
  · intro right
    exact apart 0 ((once_iff _ _ _ _ rfl).mp (right.once rfl))
  · intro right
    have all : (Asked.mk afInet 1).doaliases ≠ 0 := Int.one_ne_zero
    exact apart 1 ((aliases_iff _ _ _ _ all).mp (right.aliases all))

end SocketProgram.GetIfiInfo

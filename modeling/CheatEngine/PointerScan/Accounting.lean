/-
  CheatEngine.PointerScan.Accounting

  Where the paths are after a hand-over.  An entry of the fixed queue may only be
  taken with a token.  When the token for the last entry cannot be had, because a
  worker holds it, the loop of `BuildPathListForTransmission` goes on with the entry
  before; if it gets a token there, because the worker has given it back, it takes
  that entry, and drops the last one.
-/
import Mathlib.Algebra.Order.Group.Multiset
import Mathlib.Tactic.Abel
import CheatEngine.PointerScan.HandOver
import CheatEngine.PointerScan.Scheduling

namespace CheatEngine.PointerScan

open CheatEngine.Lib

/-! ## Where the paths are -/

/-- The content of elements, in any order. -/
def dataOf (s : Settings) (paths : List PathQueueElement) : Multiset PathData :=
  (paths.map (PathQueueElement.data s) : List PathData)

/-- The paths in the queues, and those that workers took. -/
def Node.data (s : Settings) (n : Node) : Multiset PathData :=
  dataOf s n.pathqueue + dataOf s n.overflowqueue + dataOf s n.taken

variable {s : Settings} {n n' n'' : Node} {paths paths' paths'' : List PathQueueElement}

@[simp] theorem dataOf_nil : dataOf s [] = 0 := rfl

@[simp] theorem dataOf_append (paths paths' : List PathQueueElement) :
    dataOf s (paths ++ paths') = dataOf s paths + dataOf s paths' := by
  rw [dataOf, List.map_append, ← Multiset.coe_add]
  rfl

@[simp] theorem dataOf_singleton (e : PathQueueElement) : dataOf s [e] = {e.data s} := rfl

theorem dataOf_perm (h : paths.Perm paths') : dataOf s paths = dataOf s paths' :=
  Multiset.coe_eq_coe.2 (h.map _)

theorem mem_dataOf {d : PathData} : d ∈ dataOf s paths ↔ ∃ e ∈ paths, e.data s = d :=
  List.mem_map

/-- From `n` with `paths` on their way to `n'` with `paths'` nothing is lost or
    doubled: only what workers put in is new. -/
def Balanced (s : Settings) (n : Node) (paths : List PathQueueElement) (n' : Node)
    (paths' : List PathQueueElement) : Prop :=
  n'.data s + dataOf s paths' + dataOf s n.added = n.data s + dataOf s paths + dataOf s n'.added

namespace Balanced

theorem refl : Balanced s n paths n paths := rfl

theorem trans (h : Balanced s n paths n' paths') (h' : Balanced s n' paths' n'' paths'') :
    Balanced s n paths n'' paths'' := by
  unfold Balanced at h h' ⊢
  apply add_right_cancel (b := n'.data s + dataOf s paths' + dataOf s n'.added)
  calc _ = (n''.data s + dataOf s paths'' + dataOf s n'.added) +
        (n'.data s + dataOf s paths' + dataOf s n.added) := by abel
    _ = (n'.data s + dataOf s paths' + dataOf s n''.added) +
        (n.data s + dataOf s paths + dataOf s n'.added) := by rw [h, h']
    _ = _ := by abel

/-- Acts of others do not see what is on its way. -/
theorem of_nil (h : Balanced s n [] n' []) (paths : List PathQueueElement) :
    Balanced s n paths n' paths := by
  unfold Balanced at h ⊢
  rw [dataOf_nil, add_zero, add_zero] at h
  calc _ = (n'.data s + dataOf s n.added) + dataOf s paths := by abel
    _ = (n.data s + dataOf s n'.added) + dataOf s paths := by rw [h]
    _ = _ := by abel

end Balanced

/-- The overflow queue is moved from its end. -/
theorem reverse_take_perm {α : Type} (l : List α) (count : Nat) :
    (l.reverse.take count ++ l.take (l.length - count)).Perm l := by
  have hback := List.perm_append_comm.trans
    (List.Perm.of_eq (List.take_append_drop (l.length - count) l))
  rw [List.take_reverse]
  exact ((List.reverse_perm _).append_right _).trans hback

theorem Node.eat_data (n : Node) :
    n.eatFromOverflowQueueIfNeeded.data s = n.data s ∧
      n.eatFromOverflowQueueIfNeeded.added = n.added := by
  unfold eatFromOverflowQueueIfNeeded
  split
  · refine ⟨?_, rfl⟩
    have hmoved := dataOf_perm (s := s) (reverse_take_perm n.overflowqueue
      (min n.overflowqueue.length (maxQueueSize - n.pathqueue.length)))
    unfold Node.data
    rw [← hmoved, dataOf_append, dataOf_append]
    abel
  · exact ⟨rfl, rfl⟩

theorem Node.append_data (n : Node) (paths : List PathQueueElement) :
    (n.appendDynamicPathQueueToOverflowQueue paths).data s = n.data s + dataOf s paths ∧
      (n.appendDynamicPathQueueToOverflowQueue paths).added = n.added := by
  unfold appendDynamicPathQueueToOverflowQueue
  obtain ⟨hdata, hadded⟩ :=
    Node.eat_data (s := s) { n with overflowqueue := n.overflowqueue ++ paths }
  refine ⟨?_, hadded⟩
  rw [hdata, Node.data, Node.data, dataOf_append]
  abel

theorem balanced_act (locked : Bool) (n : Node) (a : Act) :
    Balanced s n [] (n.act locked a) [] := by
  cases a with
  | acquire =>
    unfold Node.act
    dsimp only
    split <;> exact .refl
  | giveBack =>
    unfold Node.act
    dsimp only
    split <;> exact .refl
  | take =>
    unfold Node.act
    dsimp only
    split
    · split
      · next e hlast =>
        obtain ⟨queue, hqueue⟩ := List.getLast?_eq_some_iff.1 hlast
        unfold Balanced Node.data
        rw [hqueue, List.dropLast_concat]
        simp only [dataOf_append, dataOf_nil]
        abel
      · exact .refl
    · exact .refl
  | push e =>
    unfold Node.act
    dsimp only
    split
    · unfold Balanced Node.data
      simp only [dataOf_append, dataOf_nil]
      abel
    · exact .refl
  | overflow e =>
    unfold Balanced Node.data Node.act
    simp only [dataOf_append, dataOf_nil]
    abel
  | eat =>
    unfold Node.act
    dsimp only
    split
    · exact .refl
    · obtain ⟨hdata, hadded⟩ := Node.eat_data (s := s) n
      unfold Balanced
      rw [hdata, hadded]

theorem balanced_run (locked : Bool) (n : Node) (acts : List Act) :
    Balanced s n [] (n.run locked acts) [] := by
  induction acts generalizing n with
  | nil => exact .refl
  | cons a acts ih => exact (balanced_act locked n a).trans (ih (n.act locked a))

theorem run_locked_pathqueue (n : Node) (acts : List Act) :
    (n.run true acts).pathqueue = n.pathqueue := by
  induction acts generalizing n with
  | nil => rfl
  | cons a acts ih =>
    have hact : (n.act true a).pathqueue = n.pathqueue := by
      cases a with
      | acquire => unfold Node.act; dsimp only; split <;> rfl
      | giveBack => unfold Node.act; dsimp only; split <;> rfl
      | _ => rfl
    exact (ih (n.act true a)).trans hact

/-! ## The paths that are taken -/

theorem takeGoodPath_balanced (count : Nat) (n : Node) :
    Balanced s n [] (takeGoodPath count n).1 ((takeGoodPath count n).2.getD []) := by
  unfold takeGoodPath
  split
  · exact .refl
  · next e queue hqueue =>
    split
    · split
      · exact .refl
      · unfold Balanced Node.data
        have hcons : dataOf s n.pathqueue = dataOf s [e] + dataOf s queue := by
          rw [hqueue, ← dataOf_append]
          rfl
        rw [hcons]
        simp only [dataOf_nil, Option.getD_some]
        abel
    · exact .refl

theorem takeOverflow_balanced (count : Nat) (paths : List PathQueueElement) (n : Node) :
    Balanced s n paths (takeOverflow count paths n).1 (takeOverflow count paths n).2 := by
  have hmoved := dataOf_perm (s := s) (reverse_take_perm n.overflowqueue
    (min (count - paths.length) n.overflowqueue.length))
  unfold Balanced Node.data takeOverflow
  dsimp only
  rw [← hmoved]
  simp only [dataOf_append]
  abel

/-- The first two parts lose nothing. -/
theorem buildStart_balanced (count : Int) (includeVeryGoodPath : Bool)
    (between : Nat → List Act) (n : Node) :
    Balanced s n [] (buildStart count includeVeryGoodPath between n).1
      ((buildStart count includeVeryGoodPath between n).2.getD []) := by
  unfold buildStart
  dsimp only
  have hfirst : Balanced s n []
      (if includeVeryGoodPath then takeGoodPath (pathCount count) (n.run false (between 0))
        else (n.run false (between 0), some [])).1
      ((if includeVeryGoodPath then takeGoodPath (pathCount count) (n.run false (between 0))
        else (n.run false (between 0), some [])).2.getD []) := by
    split
    · exact (balanced_run false n (between 0)).trans (takeGoodPath_balanced _ _)
    · exact balanced_run false n (between 0)
  generalize (if includeVeryGoodPath then takeGoodPath (pathCount count) (n.run false (between 0))
    else (n.run false (between 0), some [])) = taken at hfirst ⊢
  obtain ⟨n₁, found⟩ := taken
  cases found with
  | none => exact hfirst
  | some paths =>
    dsimp only
    split
    · exact hfirst
    · exact (hfirst.trans ((balanced_run false n₁ (between 1)).of_nil paths)).trans
        (takeOverflow_balanced _ _ _)

/-- Every token that is obtained in the last loop is for the last entry of the
    queue. -/
def TakesLast (count : Nat) (tries : Nat → List Act) (queue : List PathQueueElement) :
    Nat → Node → List PathQueueElement → Prop
  | 0, _, _ => True
  | i + 1, n, paths =>
    let n := n.run true (tries i)
    let next := tryTake queue i n paths
    (0 < n.semaphore → i + 1 = n.pathqueue.length) ∧
      (next.2.length < count → TakesLast count tries queue i next.1 next.2)

variable {i : Nat} {queue : List PathQueueElement}

/-- One turn with a token for the last entry. -/
theorem tryTake_balanced (hqueue : n.pathqueue = queue.take n.pathqueue.length)
    (hlast : 0 < n.semaphore → i + 1 = n.pathqueue.length) (paths : List PathQueueElement) :
    Balanced s n paths (tryTake queue i n paths).1 (tryTake queue i n paths).2 := by
  unfold tryTake
  split
  · exact .refl
  · next e he =>
    split
    · next hpos =>
      have hlength := hlast hpos
      -- the entry is the last one
      have hsplit : n.pathqueue = queue.take i ++ [e] := by
        rw [hqueue, ← hlength, List.take_add_one, he]
        rfl
      unfold Balanced Node.data
      dsimp only
      rw [hsplit, List.dropLast_concat]
      simp only [dataOf_append]
      abel
    · exact .refl

theorem tryTake_pathqueue (i : Nat)
    (hqueue : n.pathqueue = queue.take n.pathqueue.length) (hle : i + 1 ≤ n.pathqueue.length)
    (paths : List PathQueueElement) :
    (tryTake queue i n paths).1.pathqueue =
        queue.take (tryTake queue i n paths).1.pathqueue.length ∧
      i ≤ (tryTake queue i n paths).1.pathqueue.length := by
  unfold tryTake
  split
  · exact ⟨hqueue, Nat.le_of_succ_le hle⟩
  · split
    · dsimp only
      have hlength : n.pathqueue.length ≤ queue.length := by
        rw [hqueue, List.length_take]
        omega
      have hdrop : n.pathqueue.dropLast = queue.take (n.pathqueue.length - 1) := by
        rw [List.dropLast_eq_take]
        conv_lhs => rw [hqueue]
        rw [List.take_take, List.length_take]
        congr 1
        omega
      rw [hdrop, List.length_take]
      constructor
      · congr 1
        omega
      · omega
    · exact ⟨hqueue, Nat.le_of_succ_le hle⟩

variable {tries : Nat → List Act}

/-- The last loop loses nothing when every token is for the last entry. -/
theorem takeBack_balanced {count : Nat} (hqueue : n.pathqueue = queue.take n.pathqueue.length)
    (hle : i ≤ n.pathqueue.length) (hlast : TakesLast count tries queue i n paths) :
    Balanced s n paths (takeBack count tries queue i n paths).1
      (takeBack count tries queue i n paths).2 := by
  induction i generalizing n paths with
  | zero => exact .refl
  | succ i ih =>
    have hrun := (balanced_run (s := s) true n (tries i)).of_nil paths
    have hsame := run_locked_pathqueue n (tries i)
    rw [← hsame] at hqueue hle
    obtain ⟨hfor, hrest⟩ := hlast
    have htry := hrun.trans (tryTake_balanced hqueue hfor paths)
    obtain ⟨hqueue', hle'⟩ := tryTake_pathqueue i hqueue hle paths
    unfold takeBack
    dsimp only
    split
    · exact htry
    · next hmore => exact htry.trans (ih hqueue' hle' (hrest (Nat.lt_of_not_le hmore)))

/-! ## A token for an earlier entry -/

/-- All that is in the queues, taken or on its way. -/
def Node.all (s : Settings) (n : Node) (paths : List PathQueueElement) : Multiset PathData :=
  n.data s + dataOf s paths

theorem eat_added (n : Node) : n.eatFromOverflowQueueIfNeeded.added = n.added := by
  unfold Node.eatFromOverflowQueueIfNeeded
  split <;> rfl

theorem run_added (locked : Bool) (n : Node) (acts : List Act) :
    ∃ new, (n.run locked acts).added = n.added ++ new := by
  induction acts generalizing n with
  | nil => exact ⟨[], (List.append_nil _).symm⟩
  | cons a acts ih =>
    have hact : ∃ new, (n.act locked a).added = n.added ++ new := by
      cases a with
      | push e =>
        unfold Node.act
        dsimp only
        split
        · exact ⟨[e], rfl⟩
        · exact ⟨[], (List.append_nil _).symm⟩
      | overflow e => exact ⟨[e], rfl⟩
      | take =>
        refine ⟨[], ?_⟩
        unfold Node.act
        rw [List.append_nil]
        dsimp only
        split
        · split <;> rfl
        · rfl
      | eat =>
        refine ⟨[], ?_⟩
        unfold Node.act
        rw [List.append_nil]
        dsimp only
        split
        · rfl
        · exact eat_added n
      | acquire => exact ⟨[], by unfold Node.act; dsimp only; split <;> simp⟩
      | giveBack => exact ⟨[], by unfold Node.act; dsimp only; split <;> simp⟩
    obtain ⟨new, hnew⟩ := hact
    obtain ⟨rest, hrest⟩ := ih (n.act locked a)
    exact ⟨new ++ rest, by rw [← List.append_assoc, ← hnew]; exact hrest⟩

theorem Balanced.all_eq (h : Balanced s n paths n' paths') {new : List PathQueueElement}
    (hnew : n'.added = n.added ++ new) : n'.all s paths' = n.all s paths + dataOf s new := by
  unfold Balanced at h
  rw [hnew, dataOf_append] at h
  apply add_right_cancel (b := dataOf s n.added)
  unfold Node.all
  rw [h]
  abel

theorem tryTake_added (queue : List PathQueueElement) (i : Nat) (n : Node)
    (paths : List PathQueueElement) : (tryTake queue i n paths).1.added = n.added := by
  unfold tryTake
  split
  · rfl
  · split <;> rfl

theorem tryTake_within
    (hqueue : n.pathqueue = queue.take n.pathqueue.length) (hle : i + 1 ≤ n.pathqueue.length)
    {d : PathData} (hd : d ∈ (tryTake queue i n paths).1.all s (tryTake queue i n paths).2) :
    d ∈ n.all s paths := by
  unfold tryTake at hd
  split at hd
  · exact hd
  · next e he =>
    split at hd
    · have hmem : e ∈ n.pathqueue := by
        rw [hqueue]
        have hget : (queue.take n.pathqueue.length)[i]? = some e := by
          rw [List.getElem?_take, if_pos (by omega), he]
        exact List.mem_of_getElem? hget
      unfold Node.all Node.data at hd ⊢
      simp only [dataOf_append, dataOf_singleton, Multiset.mem_add, Multiset.mem_singleton] at hd ⊢
      rcases hd with ((hd | hd) | hd) | hd | rfl
      · obtain ⟨e', he', rfl⟩ := mem_dataOf.1 hd
        exact .inl (.inl (.inl (mem_dataOf.2 ⟨e', List.dropLast_subset _ he', rfl⟩)))
      · exact .inl (.inl (.inr hd))
      · exact .inl (.inr hd)
      · exact .inr hd
      · exact .inl (.inl (.inl (mem_dataOf.2 ⟨e, hmem, rfl⟩)))
    · exact hd

theorem takeBack_within (count : Nat) (tries : Nat → List Act)
    (hqueue : n.pathqueue = queue.take n.pathqueue.length)
    (hle : i ≤ n.pathqueue.length) (paths : List PathQueueElement) :
    ∃ new, (takeBack count tries queue i n paths).1.added = n.added ++ new ∧
      ∀ d ∈ (takeBack count tries queue i n paths).1.all s
        (takeBack count tries queue i n paths).2, d ∈ n.all s paths + dataOf s new := by
  induction i generalizing n paths with
  | zero => exact ⟨[], (List.append_nil _).symm, fun d hd => Multiset.mem_add.2 (.inl hd)⟩
  | succ i ih =>
    obtain ⟨new, hnew⟩ := run_added true n (tries i)
    have hrun := ((balanced_run (s := s) true n (tries i)).of_nil paths).all_eq hnew
    rw [← run_locked_pathqueue n (tries i)] at hqueue hle
    have htry : ∀ d ∈ (tryTake queue i (n.run true (tries i)) paths).1.all s
        (tryTake queue i (n.run true (tries i)) paths).2,
        d ∈ (n.run true (tries i)).all s paths := fun _ => tryTake_within hqueue hle
    have hadded := tryTake_added queue i (n.run true (tries i)) paths
    obtain ⟨hqueue', hle'⟩ := tryTake_pathqueue i hqueue hle paths
    unfold takeBack
    dsimp only
    split
    · exact ⟨new, hadded.trans hnew, fun d hd => hrun ▸ htry d hd⟩
    · obtain ⟨rest, hrest, hwithin⟩ := ih hqueue' hle' (tryTake queue i _ paths).2
      refine ⟨new ++ rest, by rw [hrest, hadded, hnew, List.append_assoc], fun d hd => ?_⟩
      rw [dataOf_append, ← add_assoc, ← hrun]
      rcases Multiset.mem_add.1 (hwithin d hd) with hold | hnew'
      · exact Multiset.mem_add.2 (.inl (htry d hold))
      · exact Multiset.mem_add.2 (.inr hnew')

theorem tryTake_loses
    (hqueue : n.pathqueue = queue.take n.pathqueue.length) (hlt : i + 1 < n.pathqueue.length)
    (hpos : 0 < n.semaphore) (hnodup : (n.all s paths).Nodup) :
    ∃ d ∈ n.all s paths, d ∉ (tryTake queue i n paths).1.all s (tryTake queue i n paths).2 := by
  have hne : n.pathqueue ≠ [] := List.ne_nil_of_length_pos (by omega)
  obtain ⟨init, last, hsplit⟩ : ∃ init last, n.pathqueue = init ++ [last] :=
    ⟨_, _, (List.dropLast_append_getLast hne).symm⟩
  have hlength : n.pathqueue.length = init.length + 1 := by
    rw [hsplit, List.length_append, List.length_singleton]
  obtain ⟨e, he⟩ : ∃ e, n.pathqueue[i]? = some e :=
    ⟨_, List.getElem?_eq_getElem (by omega)⟩
  have hget : queue[i]? = some e := by
    rw [hqueue, List.getElem?_take, if_pos (by omega)] at he
    exact he
  -- the entry that is taken stays in the queue as well
  have hmem : e ∈ init := by
    rw [hsplit, List.getElem?_append_left (by omega)] at he
    exact List.mem_of_getElem? he
  have hall : n.all s paths = dataOf s init + dataOf s n.overflowqueue + dataOf s n.taken +
      dataOf s paths + {last.data s} := by
    unfold Node.all Node.data
    rw [hsplit]
    simp only [dataOf_append, dataOf_singleton]
    abel
  have hafter : (tryTake queue i n paths).1.all s (tryTake queue i n paths).2 =
      dataOf s init + dataOf s n.overflowqueue + dataOf s n.taken + dataOf s paths +
        {e.data s} := by
    unfold tryTake Node.all Node.data
    simp only [hget, if_pos hpos, hsplit, List.dropLast_concat, dataOf_append, dataOf_singleton]
    abel
  have hnot : last.data s ∉ dataOf s init + dataOf s n.overflowqueue + dataOf s n.taken +
      dataOf s paths := by
    intro hin
    rw [hall] at hnodup
    have hdisjoint := (Multiset.nodup_add.1 hnodup).2.2
    exact Multiset.disjoint_left.1 hdisjoint hin (Multiset.mem_singleton_self _)
  refine ⟨last.data s, ?_, ?_⟩
  · rw [hall]
    exact Multiset.mem_add.2 (.inr (Multiset.mem_singleton_self _))
  · rw [hafter]
    intro hin
    rcases Multiset.mem_add.1 hin with hin | hin
    · exact hnot hin
    · apply hnot
      rw [Multiset.mem_singleton.1 hin]
      simp only [Multiset.mem_add]
      exact .inl (.inl (.inl (mem_dataOf.2 ⟨e, hmem, rfl⟩)))

/-- So does the last loop. -/
theorem takeBack_loses {count : Nat} (hqueue : n.pathqueue = queue.take n.pathqueue.length)
    (hle : i ≤ n.pathqueue.length) (hnot : ¬ TakesLast count tries queue i n paths)
    {new : List PathQueueElement}
    (hnew : (takeBack count tries queue i n paths).1.added = n.added ++ new)
    (hnodup : (n.all s paths + dataOf s new).Nodup) :
    ∃ d ∈ n.all s paths + dataOf s new,
      d ∉ (takeBack count tries queue i n paths).1.all s
        (takeBack count tries queue i n paths).2 := by
  induction i generalizing n paths new with
  | zero => exact absurd trivial hnot
  | succ i ih =>
    obtain ⟨new₁, hnew₁⟩ := run_added true n (tries i)
    have hrun := ((balanced_run (s := s) true n (tries i)).of_nil paths).all_eq hnew₁
    rw [← run_locked_pathqueue n (tries i)] at hqueue hle
    have hadded := tryTake_added queue i (n.run true (tries i)) paths
    obtain ⟨hqueue', hle'⟩ := tryTake_pathqueue i hqueue hle paths
    obtain ⟨new₂, hnew₂, hwithin⟩ := takeBack_within (s := s) count tries hqueue' hle'
      (tryTake queue i (n.run true (tries i)) paths).2
    unfold TakesLast at hnot
    unfold takeBack at hnew ⊢
    dsimp only at hnot hnew ⊢
    by_cases hfor : 0 < (n.run true (tries i)).semaphore →
        i + 1 = (n.run true (tries i)).pathqueue.length
    · -- this turn was in order
      have hmore : (tryTake queue i (n.run true (tries i)) paths).2.length < count := by
        by_contra hno
        exact hnot ⟨hfor, fun hyes => absurd hyes hno⟩
      have hlater : ¬ TakesLast count tries queue i (tryTake queue i (n.run true (tries i)) paths).1
          (tryTake queue i (n.run true (tries i)) paths).2 :=
        fun hyes => hnot ⟨hfor, fun _ => hyes⟩
      have htry := (tryTake_balanced (s := s) hqueue hfor paths).all_eq
        (hadded.trans (List.append_nil _).symm)
      rw [if_neg (Nat.not_le.2 hmore)] at hnew ⊢
      have hparts : new = new₁ ++ new₂ := by
        rw [hnew₂, hadded, hnew₁, List.append_assoc] at hnew
        exact (List.append_cancel_left hnew).symm
      have htotal : n.all s paths + dataOf s new =
          (tryTake queue i (n.run true (tries i)) paths).1.all s
            (tryTake queue i (n.run true (tries i)) paths).2 + dataOf s new₂ := by
        rw [htry, hrun, hparts, dataOf_append, dataOf_nil, add_zero, add_assoc]
      rw [htotal] at hnodup ⊢
      exact ih hqueue' hle' hlater hnew₂ hnodup
    · obtain ⟨hpos, hne⟩ := Classical.not_imp.1 hfor
      have hlt : i + 1 < (n.run true (tries i)).pathqueue.length := by omega
      -- what is lost in this turn does not come back
      split at hnew
      · next hdone =>
        have hparts : new = new₁ := by
          rw [hadded, hnew₁] at hnew
          exact (List.append_cancel_left hnew).symm
        rw [hparts, ← hrun] at hnodup
        rw [if_pos hdone, hparts, ← hrun]
        exact tryTake_loses hqueue hlt hpos hnodup
      · next hmore =>
        have hparts : new = new₁ ++ new₂ := by
          rw [hnew₂, hadded, hnew₁, List.append_assoc] at hnew
          exact (List.append_cancel_left hnew).symm
        rw [hparts, dataOf_append, ← add_assoc, ← hrun] at hnodup
        obtain ⟨hfirst, -, hdisjoint⟩ := Multiset.nodup_add.1 hnodup
        obtain ⟨d, hd, hgone⟩ := tryTake_loses hqueue hlt hpos hfirst
        rw [if_neg hmore, hparts, dataOf_append, ← add_assoc, ← hrun]
        refine ⟨d, Multiset.mem_add.2 (.inl hd), fun hin => ?_⟩
        rcases Multiset.mem_add.1 (hwithin d hin) with hold | hlate
        · exact hgone hold
        · exact Multiset.disjoint_left.1 hdisjoint hd hlate

/-! ## The outcome of an exchange -/

def TokensInOrder (count : Int) (includeVeryGoodPath : Bool) (between tries : Nat → List Act)
    (n : Node) : Prop :=
  ∀ n' paths, buildStart count includeVeryGoodPath between n = (n', some paths) →
    paths.length < pathCount count →
    TakesLast (pathCount count) tries (n'.run false (between 2)).pathqueue
      (n'.run false (between 2)).pathqueue.length (n'.run false (between 2)) paths

section

variable (s : Settings) (link : Link) (paths : List PathQueueElement) (x : Exchange)

/-- All bytes of the sender arrive. -/
def Exchange.arrived : Bool := (x.message s paths).length ≤ link.delivered

/-- The paths arrive, or the sender puts them back. -/
def Exchange.Arrives : Prop :=
  match x with
  | .sendPaths connected accepts =>
    connected = false ∨ (accepts = true ∧ x.arrived s link paths = true) ∨
      (accepts = false ∧ link.noticed = false ∧ link.answered = true ∧ 5 ≤ link.delivered)
  | .giveMeYourPaths _ _ => x.arrived s link paths = true ∨ link.noticed = true
  | .hereAreSomePaths _ _ => True

/-- The connection does not fail. -/
def Exchange.Works : Prop :=
  x.arrived s link paths = true ∧ link.noticed = false ∧ link.answered = true

end

theorem load_eq (x : Exchange) (link : Link) {paths : List PathQueueElement}
    (hcount : paths.length ≤ 65535) :
    x.load s ((x.message s paths).take link.delivered) =
      if x.arrived s link paths then some (paths.map (PathQueueElement.data s)) else none := by
  have hreads : Reader.Reads (Reader.bytes x.command.length >>= fun _ => readPaths s)
      (x.message s paths) (paths.map (PathQueueElement.data s)) :=
    (Reader.Reads.bytes x.command).bind (reads_paths (by omega))
  unfold Exchange.load
  split
  · next hle =>
    have hwhole := hreads.whole []
    rw [List.append_nil] at hwhole
    rw [List.take_of_length_le (of_decide_eq_true hle), hwhole]
    rfl
  · next hlt =>
    have hpart := hreads.part link.delivered (Nat.lt_of_not_le fun hle => hlt (decide_eq_true hle))
    rw [hpart, Option.map_none]

theorem receive_data (receiver : Node) (paths : List PathQueueElement) :
    (Exchange.receive receiver (some (paths.map (PathQueueElement.data s)))).data s =
      receiver.data s + dataOf s paths := by
  cases paths with
  | nil => exact (add_zero _).symm
  | cons e paths =>
    have happend := (receiver.append_data (s := s)
      (((e :: paths).map (PathQueueElement.data s)).map PathData.element)).1
    have hsame : dataOf s (((e :: paths).map (PathQueueElement.data s)).map PathData.element) =
        dataOf s (e :: paths) := by
      rw [dataOf, List.map_map, List.map_map]
      congr 1
      exact List.map_congr_left fun e _ => data_element e
    rw [hsame] at happend
    exact happend

/-- Where the paths are in the end: with the sender, with the receiver, both or
    neither. -/
structure Outcome (s : Settings) (x : Exchange) (link : Link) (paths : List PathQueueElement)
    (sender receiver : Node) (out : Node × Node) (restored received : Bool) : Prop where
  atSender : out.1.data s = sender.data s + if restored then dataOf s paths else 0
  added : out.1.added = sender.added
  atReceiver : out.2.data s = receiver.data s + if received then dataOf s paths else 0
  arrives : (restored || received) = true ↔ paths = [] ∨ x.Arrives s link paths
  works : x.Works s link paths → restored = !received

section Outcome

variable (link : Link) (sender receiver : Node)

theorem receive_load (x : Exchange) (hcount : paths.length ≤ 65535) :
    (Exchange.receive receiver (x.load s ((x.message s paths).take link.delivered))).data s =
      receiver.data s + if x.arrived s link paths then dataOf s paths else 0 := by
  rw [load_eq x link hcount]
  cases x.arrived s link paths with
  | true => exact receive_data receiver paths
  | false => exact (add_zero _).symm

theorem sendPathsToParent_outcome (connected accepts : Bool) (hcount : paths.length ≤ 65535) :
    ∃ restored received, Outcome s (.sendPaths connected accepts) link paths sender receiver
      (Exchange.sendPathsToParent s connected accepts link sender receiver paths)
      restored received := by
  obtain ⟨hrestore, hadded⟩ := sender.append_data (s := s) paths
  have hreceive := receive_load (s := s) link receiver (.sendPaths connected accepts) hcount
  have hlength : 5 ≤ ((Exchange.sendPaths connected accepts).message s paths).length := by
    show 5 ≤ (u8 4 ++ (u32 _ ++ _)).length
    simp only [List.length_append, u8_length, u32_length]
    omega
  unfold Exchange.sendPathsToParent
  dsimp only
  split
  · next hempty =>
    have hnil : paths = [] := List.eq_nil_of_length_eq_zero hempty
    subst hnil
    exact ⟨true, false, (add_zero _).symm, rfl, (add_zero _).symm, by simp, fun _ => rfl⟩
  · next hsome =>
    have hne : paths ≠ [] := fun hnil => hsome (by rw [hnil]; rfl)
    split
    · next hconnected =>
      cases accepts with
      | true =>
        refine ⟨false, (Exchange.sendPaths connected true).arrived s link paths,
          ?_, ?_, ?_, ?_, ?_⟩
        · simp
        · simp
        · split <;> exact hreceive
        · simp [Exchange.Arrives, hne, hconnected]
        · rintro ⟨hle, -, -⟩
          rw [hle]
          rfl
      | false =>
        have harrived : 5 ≤ (((Exchange.sendPaths connected false).message s paths).take
            link.delivered).length ↔ 5 ≤ link.delivered := by
          rw [List.length_take]
          omega
        refine ⟨!link.noticed && link.answered && decide (5 ≤ link.delivered), false,
          ?_, ?_, ?_, ?_, ?_⟩
        · simp only [Bool.not_false, Bool.true_and, harrived]
          split
          · exact hrestore
          · exact (add_zero _).symm
        · simp only [Bool.not_false, Bool.true_and, harrived]
          split
          · exact hadded
          · rfl
        · split <;> exact (add_zero _).symm
        · simp [Exchange.Arrives, hne, hconnected, and_assoc]
        · rintro ⟨hle, hnoticed, hanswered⟩
          have hfive : 5 ≤ link.delivered := Nat.le_trans hlength (of_decide_eq_true hle)
          rw [hnoticed, hanswered, decide_eq_true hfive]
          rfl
    · next hconnected =>
      refine ⟨true, false, hrestore, hadded, (add_zero _).symm, ?_, fun _ => rfl⟩
      simp [Exchange.Arrives, Bool.eq_false_iff.2 hconnected]

theorem outcome_of_flags {x : Exchange} (restored : Bool) {loaded : Option (List PathData)}
    (hreceive : (Exchange.receive receiver loaded).data s =
      receiver.data s + if x.arrived s link paths then dataOf s paths else 0)
    (harrives : paths ≠ [] → ((restored || x.arrived s link paths) = true ↔
      x.Arrives s link paths))
    (hworks : x.Works s link paths → restored = !x.arrived s link paths) :
    ∃ restored' received, Outcome s x link paths sender receiver
      (if restored then (sender.appendDynamicPathQueueToOverflowQueue paths,
          Exchange.receive receiver loaded)
        else (sender, Exchange.receive receiver loaded)) restored' received := by
  obtain ⟨hrestore, hadded⟩ := sender.append_data (s := s) paths
  by_cases hnil : paths = []
  · subst hnil
    rw [dataOf_nil, ite_self] at hreceive
    refine ⟨true, false, ?_, ?_, ?_, by simp, fun _ => rfl⟩
    · split
      · exact hrestore
      · exact (add_zero _).symm
    · split
      · exact hadded
      · rfl
    · split <;> exact hreceive
  · refine ⟨restored, x.arrived s link paths, ?_, ?_, ?_, ?_, hworks⟩
    · split
      · exact hrestore
      · exact (add_zero _).symm
    · split
      · exact hadded
      · rfl
    · split <;> exact hreceive
    · rw [harrives hnil]
      exact ⟨.inr, fun h => h.resolve_left hnil⟩

theorem giveMyPaths_outcome (maxcount : Int) (asked : Bool) (hcount : paths.length ≤ 65535) :
    ∃ restored received, Outcome s (.giveMeYourPaths maxcount asked) link paths sender receiver
      (Exchange.giveMyPaths s maxcount link sender receiver paths) restored received := by
  unfold Exchange.giveMyPaths
  apply outcome_of_flags link sender receiver link.noticed
  · exact receive_load link receiver (.giveMeYourPaths maxcount true) hcount
  · intro _
    rw [Bool.or_eq_true]
    exact or_comm
  · rintro ⟨hle, hnoticed, -⟩
    rw [hle, hnoticed]
    rfl

theorem sendPathsToChild_outcome (count : Int) (includeVeryGoodPath : Bool)
    (hcount : paths.length ≤ 65535) :
    ∃ restored received, Outcome s (.hereAreSomePaths count includeVeryGoodPath) link paths sender
      receiver (Exchange.sendPathsToChild s count includeVeryGoodPath link sender receiver paths)
      restored received := by
  have hloaded : ((Exchange.hereAreSomePaths count includeVeryGoodPath).load s
      (((Exchange.hereAreSomePaths count includeVeryGoodPath).message s paths).take
        link.delivered)).isSome =
      (Exchange.hereAreSomePaths count includeVeryGoodPath).arrived s link paths := by
    rw [load_eq _ link hcount]
    split
    · next hyes => exact hyes.symm
    · next hno => exact (Bool.eq_false_iff.2 hno).symm
  unfold Exchange.sendPathsToChild
  dsimp only
  have hswap : ∀ (b : Bool) (p q : Node × Node), (if b then p else q) = if !b then q else p := by
    intro b p q
    cases b <;> rfl
  rw [hswap, hloaded]
  apply outcome_of_flags link sender receiver
  · exact receive_load link receiver (.hereAreSomePaths count includeVeryGoodPath) hcount
  · intro _
    refine ⟨fun _ => trivial, fun _ => ?_⟩
    cases (Exchange.hereAreSomePaths count includeVeryGoodPath).arrived s link paths <;> simp
  · rintro ⟨hle, hnoticed, hanswered⟩
    rw [hle, hnoticed, hanswered]
    rfl

theorem transmit_outcome (x : Exchange) (hcount : paths.length ≤ 65535) :
    ∃ restored received, Outcome s x link paths sender receiver
      (x.transmit s link sender receiver paths) restored received := by
  cases x with
  | sendPaths connected accepts =>
    exact sendPathsToParent_outcome link sender receiver connected accepts hcount
  | giveMeYourPaths maxcount asked =>
    exact giveMyPaths_outcome link sender receiver maxcount asked hcount
  | hereAreSomePaths count includeVeryGoodPath =>
    exact sendPathsToChild_outcome link sender receiver count includeVeryGoodPath hcount

end Outcome

/-! ## The whole exchange -/

theorem pathCount_le (count : Int) : pathCount count ≤ 65535 := Nat.min_le_right _ _

theorem takeBack_length {count : Nat} (tries : Nat → List Act) (queue : List PathQueueElement)
    (i : Nat) (n : Node) (hlt : paths.length < count) :
    (takeBack count tries queue i n paths).2.length ≤ count := by
  induction i generalizing n paths with
  | zero => exact Nat.le_of_lt hlt
  | succ i ih =>
    have htry : (tryTake queue i (n.run true (tries i)) paths).2.length ≤ paths.length + 1 := by
      unfold tryTake
      split
      · exact Nat.le_succ _
      · split
        · simp
        · exact Nat.le_succ _
    unfold takeBack
    dsimp only
    split
    · exact Nat.le_trans htry hlt
    · next hmore => exact ih _ (Nat.lt_of_not_le hmore)

variable {between : Nat → List Act} {count : Int} {includeVeryGoodPath : Bool}

theorem buildStart_length (h : buildStart count includeVeryGoodPath between n = (n', some paths)) :
    paths.length ≤ pathCount count := by
  unfold buildStart at h
  dsimp only at h
  have hgood : ∀ n₁ paths₁, (if includeVeryGoodPath then
      takeGoodPath (pathCount count) (n.run false (between 0))
        else (n.run false (between 0), some [])) = (n₁, some paths₁) →
      paths₁.length ≤ pathCount count := by
    intro n₁ paths₁ h₁
    split at h₁
    · unfold takeGoodPath at h₁
      split at h₁
      · obtain ⟨-, hpaths⟩ := Prod.mk.inj h₁
        rw [← Option.some.inj hpaths]
        exact Nat.zero_le _
      · split at h₁
        · split at h₁
          · exact nomatch (Prod.mk.inj h₁).2
          · obtain ⟨-, hpaths⟩ := Prod.mk.inj h₁
            rw [← Option.some.inj hpaths, List.length_singleton]
            omega
        · obtain ⟨-, hpaths⟩ := Prod.mk.inj h₁
          rw [← Option.some.inj hpaths]
          exact Nat.zero_le _
    · obtain ⟨-, hpaths⟩ := Prod.mk.inj h₁
      rw [← Option.some.inj hpaths]
      exact Nat.zero_le _
  generalize (if includeVeryGoodPath then
      takeGoodPath (pathCount count) (n.run false (between 0))
        else (n.run false (between 0), some [])) = taken at h hgood
  obtain ⟨n₁, found⟩ := taken
  cases found with
  | none => exact nomatch (Prod.mk.inj h).2
  | some paths₁ =>
    have hle := hgood n₁ paths₁ rfl
    dsimp only at h
    split at h
    · obtain ⟨-, hpaths⟩ := Prod.mk.inj h
      rw [← Option.some.inj hpaths]
      exact hle
    · obtain ⟨-, hpaths⟩ := Prod.mk.inj h
      rw [← Option.some.inj hpaths]
      unfold takeOverflow
      simp only [List.length_append, List.length_take, List.length_reverse]
      omega

theorem build_eq (tries : Nat → List Act)
    (h : buildStart count includeVeryGoodPath between n = (n', some paths)) :
    buildPathListForTransmission count includeVeryGoodPath between tries n =
      if pathCount count ≤ paths.length then (n', some paths)
      else
        ((takeBack (pathCount count) tries (n'.run false (between 2)).pathqueue
            (n'.run false (between 2)).pathqueue.length (n'.run false (between 2)) paths).1,
          some (takeBack (pathCount count) tries (n'.run false (between 2)).pathqueue
            (n'.run false (between 2)).pathqueue.length (n'.run false (between 2)) paths).2) := by
  unfold buildPathListForTransmission
  rw [h]

theorem build_length
    (h : buildPathListForTransmission count includeVeryGoodPath between tries n =
      (n', some paths)) : paths.length ≤ 65535 := by
  have hmax := pathCount_le count
  cases hstart : buildStart count includeVeryGoodPath between n with
  | mk n₁ found =>
    cases found with
    | none =>
      unfold buildPathListForTransmission at h
      rw [hstart] at h
      exact nomatch (Prod.mk.inj h).2
    | some paths₁ =>
      have hle := buildStart_length hstart
      rw [build_eq tries hstart] at h
      split at h
      · obtain ⟨-, hpaths⟩ := Prod.mk.inj h
        rw [← Option.some.inj hpaths]
        omega
      · next hmore =>
        obtain ⟨-, hpaths⟩ := Prod.mk.inj h
        have hloop := takeBack_length tries (n₁.run false (between 2)).pathqueue
          (n₁.run false (between 2)).pathqueue.length (n₁.run false (between 2))
          (Nat.lt_of_not_le hmore)
        rw [← Option.some.inj hpaths]
        omega

theorem build_balanced (h : TokensInOrder count includeVeryGoodPath between tries n) :
    Balanced s n [] (buildPathListForTransmission count includeVeryGoodPath between tries n).1
      ((buildPathListForTransmission count includeVeryGoodPath between tries n).2.getD []) := by
  have hfirst := buildStart_balanced (s := s) count includeVeryGoodPath between n
  cases hstart : buildStart count includeVeryGoodPath between n with
  | mk n₁ found =>
    rw [hstart] at hfirst
    cases found with
    | none =>
      unfold buildPathListForTransmission
      rw [hstart]
      exact hfirst
    | some paths₁ =>
      rw [build_eq tries hstart]
      split
      · exact hfirst
      · next hmore =>
        have hrun := (balanced_run (s := s) false n₁ (between 2)).of_nil paths₁
        have hprefix : (n₁.run false (between 2)).pathqueue =
            (n₁.run false (between 2)).pathqueue.take
              (n₁.run false (between 2)).pathqueue.length := List.take_length.symm
        exact (hfirst.trans hrun).trans (takeBack_balanced hprefix (Nat.le_refl _)
          (h n₁ paths₁ hstart (Nat.lt_of_not_le hmore)))

theorem build_loses
    (hnot : ¬ TokensInOrder count includeVeryGoodPath between tries n) (hadded : n.added = [])
    (hnodup : (n.data s + dataOf s (buildPathListForTransmission count includeVeryGoodPath between
      tries n).1.added).Nodup) :
    ∃ paths, (buildPathListForTransmission count includeVeryGoodPath between tries n).2 =
        some paths ∧
      ∃ d ∈ n.data s + dataOf s (buildPathListForTransmission count includeVeryGoodPath between
          tries n).1.added,
        d ∉ (buildPathListForTransmission count includeVeryGoodPath between tries n).1.all s
          paths := by
  unfold TokensInOrder at hnot
  push Not at hnot
  obtain ⟨n₁, paths₁, hstart, hmore, hlast⟩ := hnot
  have hfirst := buildStart_balanced (s := s) count includeVeryGoodPath between n
  rw [hstart] at hfirst
  rw [build_eq tries hstart, if_neg (Nat.not_le.2 hmore)] at hnodup ⊢
  dsimp only at hnodup ⊢
  have hrun := hfirst.trans ((balanced_run (s := s) false n₁ (between 2)).of_nil paths₁)
  generalize n₁.run false (between 2) = n₂ at *
  have hprefix : n₂.pathqueue = n₂.pathqueue.take n₂.pathqueue.length := List.take_length.symm
  obtain ⟨new, hnew, -⟩ := takeBack_within (s := s) (pathCount count) tries hprefix
    (Nat.le_refl _) paths₁
  -- before the loop all is there
  have hall : n₂.all s paths₁ = n.data s + dataOf s n₂.added := by
    have heq : n₂.all s paths₁ = n.all s [] + dataOf s n₂.added :=
      hrun.all_eq (by rw [hadded, List.nil_append])
    rw [heq, Node.all, dataOf_nil, add_zero]
  have htotal : n.data s + dataOf s (takeBack (pathCount count) tries n₂.pathqueue
      n₂.pathqueue.length n₂ paths₁).1.added = n₂.all s paths₁ + dataOf s new := by
    rw [hnew, dataOf_append, hall, add_assoc]
  rw [htotal] at hnodup ⊢
  exact ⟨_, rfl, takeBack_loses hprefix (Nat.le_refl _) hlast hnew hnodup⟩

/-- A controller at the start of an exchange. -/
def Node.start (pathqueue overflowqueue : List PathQueueElement) (semaphore held : Nat) : Node :=
  ⟨pathqueue, overflowqueue, semaphore, held, [], []⟩

/-- Every path is with the sender, one of its workers or the receiver. -/
def Accounted (s : Settings) (sender receiver : Node) (out : Node × Node) : Prop :=
  sender.data s + dataOf s out.1.added + receiver.data s ≤ out.1.data s + out.2.data s

/-- Every path is in exactly one of these places. -/
def AccountedOnce (s : Settings) (sender receiver : Node) (out : Node × Node) : Prop :=
  sender.data s + dataOf s out.1.added + receiver.data s = out.1.data s + out.2.data s

namespace Exchange

def build (x : Exchange) (between tries : Nat → List Act) (sender : Node) :
    Node × Option (List PathQueueElement) :=
  buildPathListForTransmission x.count x.includeVeryGoodPath between tries sender

/-- The tokens are in order, and the paths arrive or are put back. -/
def Lossless (s : Settings) (x : Exchange) (link : Link) (between tries : Nat → List Act)
    (sender : Node) : Prop :=
  x.starts = true → TokensInOrder x.count x.includeVeryGoodPath between tries sender ∧
    ∀ paths, (x.build between tries sender).2 = some paths → paths = [] ∨ x.Arrives s link paths

/-- The connection does not fail during the exchange. -/
def NeverFails (s : Settings) (x : Exchange) (link : Link) (between tries : Nat → List Act)
    (sender : Node) : Prop :=
  ∀ paths, (x.build between tries sender).2 = some paths → x.Works s link paths

end Exchange

/-- Every path of the sender is somewhere, and in one place if nothing fails. -/
def HandedOver (s : Settings) (x : Exchange) (link : Link) (between tries : Nat → List Act)
    (sender receiver : Node) : Prop :=
  Accounted s sender receiver (handOver s x link between tries sender receiver) ∧
    (x.NeverFails s link between tries sender →
      AccountedOnce s sender receiver (handOver s x link between tries sender receiver))

variable {x : Exchange}

theorem accounted_of_outcome {sender receiver : Node} {link : Link}
    {out : Node × Node} {restored received : Bool} (hadded : sender.added = [])
    (hbalanced : Balanced s sender [] n paths)
    (hout : Outcome s x link paths n receiver out restored received) (acts : List Act) :
    sender.data s + dataOf s (out.1.run false acts).added + receiver.data s +
        ((if restored then dataOf s paths else 0) + if received then dataOf s paths else 0) =
      (out.1.run false acts).data s + out.2.data s + dataOf s paths := by
  have hrun := balanced_run (s := s) false out.1 acts
  unfold Balanced at hbalanced hrun
  rw [hadded, dataOf_nil, add_zero, add_zero] at hbalanced
  rw [hout.added, hout.atSender, dataOf_nil, add_zero, add_zero] at hrun
  rw [hout.atReceiver]
  apply add_right_cancel (b := dataOf s n.added)
  calc _ = (sender.data s + dataOf s n.added) + dataOf s (out.1.run false acts).added +
        receiver.data s + ((if restored then dataOf s paths else 0) +
          if received then dataOf s paths else 0) := by abel
    _ = ((n.data s + if restored then dataOf s paths else 0) +
        dataOf s (out.1.run false acts).added) + dataOf s paths + receiver.data s +
          (if received then dataOf s paths else 0) := by rw [← hbalanced]; abel
    _ = _ := by rw [← hrun]; abel

theorem handOver_some {link : Link} {sender receiver : Node} (hstarts : x.starts = true)
    (hbuild : x.build between tries sender = (n, some paths)) :
    handOver s x link between tries sender receiver =
      ((x.transmit s link n receiver paths).1.run false (between 3),
        (x.transmit s link n receiver paths).2) := by
  unfold Exchange.build at hbuild
  rw [handOver, if_pos hstarts, hbuild]

theorem handOver_none {link : Link} {sender receiver : Node} (hstarts : x.starts = true)
    (hbuild : x.build between tries sender = (n, none)) :
    handOver s x link between tries sender receiver = (n.run false (between 3), receiver) := by
  unfold Exchange.build at hbuild
  rw [handOver, if_pos hstarts, hbuild]

theorem accountedOnce_of_balanced {sender : Node} (receiver : Node) (hadded : sender.added = [])
    (hbalanced : Balanced s sender [] n []) (acts : List Act) :
    AccountedOnce s sender receiver (n.run false acts, receiver) := by
  have hrun := hbalanced.trans (balanced_run (s := s) false n acts)
  unfold Balanced at hrun
  rw [hadded, dataOf_nil, add_zero, add_zero, add_zero] at hrun
  rw [AccountedOnce, hrun]

theorem AccountedOnce.accounted {sender receiver : Node} {out : Node × Node}
    (h : AccountedOnce s sender receiver out) : Accounted s sender receiver out :=
  le_of_eq h

/-- Enough. -/
theorem handedOver_of_lossless {link : Link} {sender receiver : Node} (hadded : sender.added = [])
    (h : x.Lossless s link between tries sender) :
    HandedOver s x link between tries sender receiver := by
  cases hstarts : x.starts with
  | false =>
    have hout : handOver s x link between tries sender receiver =
        (sender.run false (between 3), receiver) := by
      rw [handOver, hstarts, if_neg Bool.false_ne_true]
    have honce := accountedOnce_of_balanced (s := s) receiver hadded .refl (between 3)
    rw [HandedOver, hout]
    exact ⟨honce.accounted, fun _ => honce⟩
  | true =>
    obtain ⟨htokens, harrives⟩ := h hstarts
    have hbalanced := build_balanced (s := s) htokens
    cases hbuild : x.build between tries sender with
    | mk n found =>
      rw [Exchange.build] at hbuild
      rw [hbuild] at hbalanced
      cases found with
      | none =>
        have honce := accountedOnce_of_balanced (s := s) receiver hadded hbalanced
          (between 3)
        rw [HandedOver, handOver_none hstarts hbuild]
        exact ⟨honce.accounted, fun _ => honce⟩
      | some paths =>
        obtain ⟨restored, received, hout⟩ :=
          transmit_outcome (s := s) link n receiver x (build_length hbuild)
        have hsum := accounted_of_outcome hadded hbalanced hout (between 3)
        have hyes := hout.arrives.2 (harrives paths (by rw [Exchange.build, hbuild]))
        rw [HandedOver, handOver_some hstarts hbuild]
        constructor
        · unfold Accounted
          cases restored <;> cases received
          · exact absurd hyes Bool.false_ne_true
          · simp only [Bool.false_eq_true, if_false, if_true, zero_add] at hsum
            exact le_of_eq (add_right_cancel hsum)
          · simp only [Bool.false_eq_true, if_false, if_true, add_zero] at hsum
            exact le_of_eq (add_right_cancel hsum)
          · -- with both of them
            simp only [if_true, ← add_assoc] at hsum
            rw [← add_right_cancel hsum]
            exact Multiset.le_add_right _ _
        · intro hworks
          have hone := hout.works (hworks paths (by rw [Exchange.build, hbuild]))
          unfold AccountedOnce
          subst hone
          cases received
          · simp only [Bool.not_false, Bool.false_eq_true, if_false, if_true,
              add_zero] at hsum
            exact add_right_cancel hsum
          · simp only [Bool.not_true, Bool.false_eq_true, if_false, if_true,
              zero_add] at hsum
            exact add_right_cancel hsum

theorem tokensInOrder_of_accounted {link : Link}
    {sender receiver : Node} (hadded : sender.added = []) (hstarts : x.starts = true)
    (hnodup : (sender.data s +
      dataOf s (handOver s x link between tries sender receiver).1.added).Nodup)
    (h : Accounted s sender receiver (handOver s x link between tries sender receiver)) :
    TokensInOrder x.count x.includeVeryGoodPath between tries sender := by
  by_contra hnot
  cases hbuild : x.build between tries sender with
  | mk n found =>
    rw [Exchange.build] at hbuild
    have hloses := build_loses (s := s) hnot hadded
    rw [hbuild] at hloses
    cases found with
    | none =>
      rw [handOver_none hstarts hbuild] at hnodup
      obtain ⟨new, hnew⟩ := run_added false n (between 3)
      rw [hnew, dataOf_append, ← add_assoc] at hnodup
      obtain ⟨paths, hpaths, -⟩ := hloses (Multiset.nodup_add.1 hnodup).1
      exact nomatch hpaths
    | some paths =>
      obtain ⟨restored, received, hout⟩ :=
        transmit_outcome (s := s) link n receiver x (build_length hbuild)
      rw [handOver_some hstarts hbuild] at hnodup h
      obtain ⟨new, hnew⟩ := run_added false (x.transmit s link n receiver paths).1 (between 3)
      have hrun := (balanced_run (s := s) false (x.transmit s link n receiver paths).1
        (between 3)).all_eq hnew
      rw [Node.all, Node.all, dataOf_nil, add_zero, add_zero, hout.atSender] at hrun
      rw [Accounted, hout.atReceiver, hrun, hnew, hout.added] at h
      rw [hnew, hout.added] at hnodup
      rw [dataOf_append, ← add_assoc] at hnodup h
      obtain ⟨hfirst, -, hdisjoint⟩ := Multiset.nodup_add.1 hnodup
      obtain ⟨paths', hpaths, d, hd, hgone⟩ := hloses hfirst
      obtain rfl := Option.some.inj hpaths
      -- the receiver's own paths do not count
      have hle : sender.data s + dataOf s n.added + dataOf s new ≤
          (n.data s + (if restored then dataOf s paths else 0) + dataOf s new) +
            if received then dataOf s paths else 0 := by
        apply (add_le_add_iff_right (receiver.data s)).1
        refine le_trans h (le_of_eq ?_)
        abel
      have hin := Multiset.mem_of_le hle (Multiset.mem_add.2 (.inl hd))
      have hpaths' : ∀ b : Bool, d ∈ (if b then dataOf s paths else 0) →
          d ∈ n.all s paths := by
        intro b hb
        cases b with
        | true => exact Multiset.mem_add.2 (.inr hb)
        | false => exact absurd hb (Multiset.notMem_zero d)
      rcases Multiset.mem_add.1 hin with hin | hin
      · rcases Multiset.mem_add.1 hin with hin | hin
        · rcases Multiset.mem_add.1 hin with hin | hin
          · exact hgone (Multiset.mem_add.2 (.inl hin))
          · exact hgone (hpaths' restored hin)
        · exact Multiset.disjoint_left.1 hdisjoint hd hin
      · exact hgone (hpaths' received hin)

/-- When all paths are different the condition is needed. -/
theorem lossless_of_accounted {link : Link} {sender receiver : Node} (hadded : sender.added = [])
    (hnodup : (sender.data s +
      dataOf s (handOver s x link between tries sender receiver).1.added).Nodup)
    (h : Accounted s sender receiver (handOver s x link between tries sender receiver)) :
    x.Lossless s link between tries sender := by
  intro hstarts
  have htokens := tokensInOrder_of_accounted hadded hstarts hnodup h
  refine ⟨htokens, fun paths hpaths => ?_⟩
  have hbalanced := build_balanced (s := s) htokens
  cases hbuild : x.build between tries sender with
  | mk n found =>
    rw [hbuild] at hpaths
    obtain rfl : found = some paths := hpaths
    rw [Exchange.build] at hbuild
    rw [hbuild, Option.getD_some] at hbalanced
    obtain ⟨restored, received, hout⟩ :=
      transmit_outcome (s := s) link n receiver x (build_length hbuild)
    have hsum := accounted_of_outcome hadded hbalanced hout (between 3)
    rw [handOver_some hstarts hbuild] at h
    apply hout.arrives.1
    by_contra hno
    -- the paths are nowhere
    obtain ⟨hrestored, hreceived⟩ := Bool.or_eq_false_iff.1 (Bool.eq_false_iff.2 hno)
    rw [hrestored, hreceived, if_neg Bool.false_ne_true, add_zero, add_zero] at hsum
    rw [Accounted, hsum] at h
    dsimp only at h
    have hcard := Multiset.card_le_card h
    rw [Multiset.card_add] at hcard
    have hzero : Multiset.card (dataOf s paths) = 0 := by omega
    have hnil : paths = [] := by
      rw [dataOf, Multiset.coe_card, List.length_map] at hzero
      exact List.eq_nil_of_length_eq_zero hzero
    exact hno (hout.arrives.2 (.inl hnil))

/-- No path is lost in a hand-over when the tokens are in order and the paths
    arrive or are put back; and when all paths are different, only then. -/
theorem handedOver_iff_lossless (s : Settings) (x : Exchange) (link : Link)
    (between tries : Nat → List Act) (pathqueue overflowqueue : List PathQueueElement)
    (semaphore held : Nat) (receiver : Node) :
    (x.Lossless s link between tries (.start pathqueue overflowqueue semaphore held) →
      HandedOver s x link between tries (.start pathqueue overflowqueue semaphore held)
        receiver) ∧
    (((Node.start pathqueue overflowqueue semaphore held).data s +
        dataOf s (handOver s x link between tries
          (.start pathqueue overflowqueue semaphore held) receiver).1.added).Nodup →
      (HandedOver s x link between tries (.start pathqueue overflowqueue semaphore held)
        receiver ↔
          x.Lossless s link between tries (.start pathqueue overflowqueue semaphore held))) := by
  refine ⟨handedOver_of_lossless rfl, fun hnodup => ⟨fun h => ?_, handedOver_of_lossless rfl⟩⟩
  exact lossless_of_accounted rfl hnodup h.1

def sampleEntry (address : UInt64) : PathQueueElement :=
  ⟨⟨fun _ => 8, fun _ => 0x1000⟩, address, 1⟩

/-- One path from the overflow queue, on a connection that works. -/
theorem handedOver_iff_lossless_overflow :
    HandedOver sampleSettings (.hereAreSomePaths 1 false) ⟨100, false, true⟩ (fun _ => [])
      (fun _ => []) (.start [] [sampleEntry 0x2000] 0 0) (.start [] [] 0 0) := by
  apply (handedOver_iff_lossless _ _ _ _ _ _ _ _ _ _).1
  intro _
  refine ⟨fun n' paths hstart hmore => ?_, fun _ _ => .inr trivial⟩
  -- the list is complete before the last loop
  have hpaths : some paths = some [sampleEntry 0x2000] := (Prod.mk.inj hstart).2.symm
  rw [Option.some.inj hpaths] at hmore
  exact absurd hmore (by decide)

/-- Two ways to lose a path.  The connection fails after three bytes of `SENDPATHS`.
    Or it works, but a worker takes the last token before the try for the second
    entry and gives it back before the one for the first: the first entry is sent
    and kept, and the second one is gone. -/
theorem not_handedOver :
    ¬ HandedOver sampleSettings (.sendPaths true true) ⟨3, true, false⟩ (fun _ => [])
      (fun _ => []) (.start [sampleEntry 0x2000] [] 1 0) (.start [] [] 0 0) ∧
    ¬ HandedOver sampleSettings (.sendPaths true true) ⟨100, false, true⟩ (fun _ => [])
      (fun i => if i = 1 then [.acquire] else [.giveBack])
      (.start [sampleEntry 0x2000, sampleEntry 0x3000] [] 1 1) (.start [] [] 0 0) := by
  constructor
  · rintro ⟨h, -⟩
    unfold Accounted at h
    revert h
    decide
  · rintro ⟨h, -⟩
    unfold Accounted at h
    revert h
    decide

end CheatEngine.PointerScan

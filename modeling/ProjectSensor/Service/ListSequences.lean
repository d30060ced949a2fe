import Mathlib.Data.Fin.VecNotation
import Mathlib.Data.Fintype.Basic
import Mathlib.Tactic.FinCases
import ProjectSensor.Library.RingHeap
import ProjectSensor.Service.LinkedList

/-!
# The service lists as sequences

A heap of list nodes in which every head starts a well-formed ring is a map from heads to
sequences.  `ListOp.Changes` says what each operation of the service does to that map, in terms of
sequences alone; the assignments of the source realize it on the links, however few nodes the ring
has and whichever of them coincide (`realizes_apply`).  A run of operations is then a run on the
sequences (`represents_run`).
-/

open ProjectSensor.Library.LinkedRing

namespace ProjectSensor.Service

variable {N : Type*} [DecidableEq N]

/-- The operations that write links. -/
inductive ListOp (N : Type*) where
  | init (l : N)
  | insertAfter (l n : N)
  | insertBefore (l n : N)
  | del (n : N)
  | spliceInit (list head : N)

namespace ListOp

def apply (links : Links N) : ListOp N → Links N
  | .init l => listInit links l
  | .insertAfter l n => listInsertAfter links l n
  | .insertBefore l n => listInsertBefore links l n
  | .del n => listDel links n
  | .spliceInit list head => listSpliceInit links list head

/-- What an operation does to the sequences, and when.  The two lists of a splice are lists of their
own. -/
inductive Changes (lists : Sequences N) : ListOp N → Sequences N → Prop
  | init {l : N} (hfree : OnNoList lists l) :
      Changes lists (.init l) (Function.update lists l (some []))
  | insertAfterHead {head n : N} {nodes : List N} (hlist : lists head = some nodes)
      (hfree : OnNoList lists n) :
      Changes lists (.insertAfter head n) (Function.update lists head (some (n :: nodes)))
  | insertAfterNode {head l n : N} {before after : List N}
      (hlist : lists head = some (before ++ l :: after)) (hfree : OnNoList lists n) :
      Changes lists (.insertAfter l n)
        (Function.update lists head (some (before ++ l :: n :: after)))
  | insertBeforeHead {head n : N} {nodes : List N} (hlist : lists head = some nodes)
      (hfree : OnNoList lists n) :
      Changes lists (.insertBefore head n) (Function.update lists head (some (nodes ++ [n])))
  | insertBeforeNode {head l n : N} {before after : List N}
      (hlist : lists head = some (before ++ l :: after)) (hfree : OnNoList lists n) :
      Changes lists (.insertBefore l n)
        (Function.update lists head (some (before ++ n :: l :: after)))
  | del {head n : N} {before after : List N}
      (hlist : lists head = some (before ++ n :: after)) :
      Changes lists (.del n) (Function.update lists head (some (before ++ after)))
  | spliceInit {list head : N} {nodes others : List N} (hlist : lists list = some nodes)
      (hhead : lists head = some others) (hne : list ≠ head) :
      Changes lists (.spliceInit list head)
        (Function.update (Function.update lists head (some (nodes ++ others))) list (some []))

end ListOp

section Realizes

variable {links : Links N} {lists lists' : Sequences N} {head l n : N} {nodes before after : List N}

theorem realizes_insertAfter (h : Represents links lists) (hlist : lists head = some nodes)
    (hl : l ∈ head :: nodes) (hfree : OnNoList lists n) {nodes' : List N}
    (hring : IsRing (links.insertAfter l n) head nodes')
    (hmem : ∀ other, other ∈ nodes' ↔ other = n ∨ other ∈ nodes) :
    Realizes links (listInsertAfter links l n) lists
      (Function.update lists head (some nodes')) := by
  rw [listInsertAfter_eq]
  exact h.insert hlist hfree hring hmem fun other hother ↦
    (h.ring head nodes hlist).agreeAt_insertAfter hl hother

theorem realizes_insertBefore (h : Represents links lists) (hlist : lists head = some nodes)
    (hl : l ∈ head :: nodes) (hfree : OnNoList lists n) {nodes' : List N}
    (hring : IsRing (links.insertBefore l n) head nodes')
    (hmem : ∀ other, other ∈ nodes' ↔ other = n ∨ other ∈ nodes) :
    Realizes links (listInsertBefore links l n) lists
      (Function.update lists head (some nodes')) := by
  rw [listInsertBefore_eq]
  exact h.insert hlist hfree hring hmem fun other hother ↦
    (h.ring head nodes hlist).agreeAt_insertBefore hl hother

/-- With an empty `list` nothing is written, and the sequences are the ones there were. -/
theorem realizes_spliceInit {list : N} {others : List N} (h : Represents links lists)
    (hlist : lists list = some nodes) (hhead : lists head = some others) (hne : list ≠ head) :
    Realizes links (listSpliceInit links list head) lists
      (Function.update (Function.update lists head (some (nodes ++ others))) list (some [])) := by
  have hempty := (h.ring list nodes hlist).next_head_eq_iff
  cases nodes with
  | nil =>
      have hsame : Function.update (Function.update lists head (some ([] ++ others)))
          list (some []) = lists := by
        rw [List.nil_append, ← hhead, Function.update_eq_self, ← hlist, Function.update_eq_self]
      rw [listSpliceInit_of_empty head (hempty.mpr rfl), hsame]
      exact ⟨h, fun _ _ _ _ _ _ ↦ ⟨rfl, rfl⟩⟩
  | cons first rest =>
      rw [listSpliceInit_of_nonempty head (mt hempty.mp (by simp))]
      exact h.splice hlist hhead hne (by simp)

/-- Each operation does to the links what it does to the sequences. -/
theorem realizes_apply {op : ListOp N} (h : Represents links lists)
    (hchange : op.Changes lists lists') : Realizes links (op.apply links) lists lists' := by
  cases hchange with
  | init hfree => exact h.reset hfree
  | insertAfterHead hlist hfree =>
      have hring := h.ring _ _ hlist
      apply realizes_insertAfter h hlist List.mem_cons_self hfree
      · exact hring.insertAfter_head (hfree _ _ hlist)
      · simp
  | insertAfterNode hlist hfree =>
      have hring := h.ring _ _ hlist
      apply realizes_insertAfter h hlist (by simp) hfree
      · exact hring.insertAfter_node (hfree _ _ hlist)
      · intro other
        simp only [List.mem_append, List.mem_cons]
        tauto
  | insertBeforeHead hlist hfree =>
      have hring := h.ring _ _ hlist
      apply realizes_insertBefore h hlist List.mem_cons_self hfree
      · exact hring.insertBefore_head (hfree _ _ hlist)
      · simp [or_comm]
  | insertBeforeNode hlist hfree =>
      have hring := h.ring _ _ hlist
      apply realizes_insertBefore h hlist (by simp) hfree
      · exact hring.insertBefore_node (hfree _ _ hlist)
      · intro other
        simp only [List.mem_append, List.mem_cons]
        tauto
  | del hlist =>
      rw [ListOp.apply, listDel_eq]
      exact h.unlink hlist
  | spliceInit hlist hhead hne => exact realizes_spliceInit h hlist hhead hne

end Realizes

/-- The sequences after each operation of a run follow from the ones before. -/
inductive Run : Sequences N → List (ListOp N) → Sequences N → Prop
  | nil (lists : Sequences N) : Run lists [] lists
  | cons {lists lists' lists'' : Sequences N} {op : ListOp N} {ops : List (ListOp N)}
      (hchange : op.Changes lists lists') (hrun : Run lists' ops lists'') :
      Run lists (op :: ops) lists''

/-- Every run on the sequences is a run of the source on the links. -/
theorem represents_run {links : Links N} {lists lists' : Sequences N} {ops : List (ListOp N)}
    (h : Represents links lists) (hrun : Run lists ops lists') :
    Represents (ops.foldl ListOp.apply links) lists' := by
  induction hrun generalizing links with
  | nil lists => exact h
  | cons hchange hrun ih => exact ih (realizes_apply h hchange).represents

/-- The list operations on a heap whose rings are `lists`, which are the only sequences of its
heads: the ones that write change the sequences as they should, a deleted node is a ring of its own,
and a search answers whether the node is a member. -/
structure ImplementsSequences (links : Links N) (lists : Sequences N) : Prop where
  unique : ∀ lists', Represents links lists' → (∀ head, lists' head = none ↔ lists head = none) →
    lists' = lists
  change : ∀ (op : ListOp N) lists', op.Changes lists lists' →
    Realizes links (op.apply links) lists lists'
  deleted : ∀ head n before after, lists head = some (before ++ n :: after) →
    IsRing (listDel links n) n [] ∧
      OnNoList (Function.update lists head (some (before ++ after))) n
  find : ∀ head nodes node fuel, lists head = some nodes → nodes.length < fuel →
    listFind links fuel head node = some (if node ∈ nodes then some node else none)

theorem list_implementsSequences {links : Links N} {lists : Sequences N}
    (h : Represents links lists) : ImplementsSequences links lists where
  unique _ h' hheads := h.unique h' hheads
  change _ _ hchange := realizes_apply h hchange
  deleted _ n _ _ hlist := by
    rw [listDel_eq]
    exact ⟨IsRing.reset _ n, h.unlink_onNoList hlist⟩
  find head nodes node _ hlist hfuel := listFind_eq (h.ring head nodes hlist) node hfuel

/-- Two nodes behind one head, an empty list and a node on neither. -/
theorem list_implementsSequences_two :
    ImplementsSequences (⟨![1, 2, 0, 3, 4], ![2, 0, 1, 3, 4]⟩ : Links (Fin 5))
      ![some [1, 2], none, none, some [], none] := by
  apply list_implementsSequences
  constructor
  case ring =>
    intro head nodes hlist
    fin_cases head <;> simp at hlist <;> subst hlist
    · exact ⟨⟨⟨rfl, rfl⟩, ⟨rfl, rfl⟩, rfl, rfl⟩, by decide⟩
    · exact (isRing_nil_iff _ _).mpr ⟨rfl, rfl⟩
  case disjoint =>
    intro head nodes head' nodes' hlist hlist' hne
    fin_cases head <;> fin_cases head' <;> simp at hlist hlist' hne <;>
      subst hlist hlist' <;> decide

end ProjectSensor.Service

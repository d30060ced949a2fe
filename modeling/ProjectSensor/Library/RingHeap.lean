import ProjectSensor.Library.LinkedRing

/-!
# A heap of rings as a map from heads to sequences

Some nodes are heads, and each of them starts a ring of its own.  `Represents` says that the rings
are well formed, that each runs through the sequence its head is mapped to, and that no two of them
share a node.  Changing one ring leaves the others in place as long as the change stays with the
nodes of that ring and nodes on no ring (`Represents.update`); each ring operation then replaces
one sequence of the map.
-/

namespace ProjectSensor.Library.LinkedRing

/-- The nodes behind each head; a node with no sequence is not a head. -/
abbrev Sequences (N : Type*) := N → Option (List N)

variable {N : Type*}

/-- The node is neither a head nor in the sequence of one. -/
def OnNoList (lists : Sequences N) (node : N) : Prop :=
  ∀ head nodes, lists head = some nodes → node ∉ head :: nodes

/-- Each head starts a ring through its sequence, and the rings share no node. -/
structure Represents (links : Links N) (lists : Sequences N) : Prop where
  ring : ∀ head nodes, lists head = some nodes → IsRing links head nodes
  disjoint : ∀ head nodes head' nodes', lists head = some nodes → lists head' = some nodes' →
    head' ≠ head → ∀ node ∈ head' :: nodes', node ∉ head :: nodes

/-- A list that has the same sequence before and after also has the same links. -/
def SameElsewhere (links links' : Links N) (lists lists' : Sequences N) : Prop :=
  ∀ head nodes, lists head = some nodes → lists' head = some nodes →
    ∀ node ∈ head :: nodes, links.AgreeAt links' node

/-- The change of the links carries one map of sequences to another. -/
structure Realizes (links links' : Links N) (lists lists' : Sequences N) : Prop where
  represents : Represents links' lists'
  elsewhere : SameElsewhere links links' lists lists'

theorem OnNoList.ne_some {lists : Sequences N} {node : N} (hnode : OnNoList lists node)
    (nodes : List N) : lists node ≠ some nodes :=
  fun hlist ↦ hnode node nodes hlist List.mem_cons_self

section DecidableEq

variable [DecidableEq N] {links links' : Links N} {lists lists' : Sequences N} {head node place : N}
  {nodes nodes' before after : List N}

theorem update_some_eq_some {other : N} {others : List N} :
    Function.update lists head (some nodes) other = some others ↔
      other = head ∧ nodes = others ∨ other ≠ head ∧ lists other = some others := by
  by_cases hne : other = head
  · simp [hne]
  · simp [hne]

theorem update_none_eq_some {other : N} {others : List N} :
    Function.update lists head none other = some others ↔
      other ≠ head ∧ lists other = some others := by
  by_cases hne : other = head
  · simp [hne]
  · simp [hne]

theorem OnNoList.update (hnode : OnNoList lists node) (hnotMem : node ∉ head :: nodes) :
    OnNoList (Function.update lists head (some nodes)) node := by
  intro other others hother
  rcases update_some_eq_some.mp hother with ⟨rfl, rfl⟩ | ⟨_, hother⟩
  · exact hnotMem
  · exact hnode other others hother

namespace Represents

/-- The links of the heads determine the sequences. -/
theorem unique (h : Represents links lists) (h' : Represents links lists')
    (hheads : ∀ head, lists' head = none ↔ lists head = none) : lists' = lists := by
  funext head
  cases hlist : lists head with
  | none => exact (hheads head).mpr hlist
  | some nodes =>
      cases hlist' : lists' head with
      | none => exact absurd ((hheads head).mp hlist') (by simp [hlist])
      | some nodes' =>
          rw [(h.ring head nodes hlist).unique (h'.ring head nodes' hlist')]

/-- A ring whose head is no longer counted as one. -/
theorem forget (h : Represents links lists) (head : N) :
    Represents links (Function.update lists head none) := by
  constructor
  case ring =>
    exact fun other others hother ↦ h.ring other others (update_none_eq_some.mp hother).2
  case disjoint =>
    intro first firsts second seconds hfirst hsecond
    exact h.disjoint first firsts second seconds (update_none_eq_some.mp hfirst).2
      (update_none_eq_some.mp hsecond).2

/-- One sequence replaced: the new ring takes its nodes from the old one and from no list, and the
links of the other lists are the same. -/
theorem update (h : Represents links lists) (hring : IsRing links' head nodes')
    (hnodes : ∀ other others, lists other = some others → other ≠ head →
      ∀ node ∈ head :: nodes', node ∉ other :: others)
    (hagree : ∀ other others, lists other = some others → other ≠ head →
      ∀ node ∈ other :: others, links.AgreeAt links' node) :
    Represents links' (Function.update lists head (some nodes')) := by
  constructor
  case ring =>
    intro other others hother
    rcases update_some_eq_some.mp hother with ⟨rfl, rfl⟩ | ⟨hne, hother⟩
    · exact hring
    · exact (h.ring other others hother).of_agreeAt (hagree other others hother hne)
  case disjoint =>
    intro first firsts second seconds hfirst hsecond hne node hnode
    rcases update_some_eq_some.mp hfirst with ⟨rfl, rfl⟩ | ⟨hhead, hfirst'⟩
    · have hsecond' := (update_some_eq_some.mp hsecond).resolve_left fun heq ↦ hne heq.1
      exact fun hin ↦ hnodes second seconds hsecond'.2 hne node hin hnode
    · rcases update_some_eq_some.mp hsecond with ⟨rfl, rfl⟩ | ⟨_, hsecond'⟩
      · exact hnodes first firsts hfirst' hhead node hnode
      · exact h.disjoint first firsts second seconds hfirst' hsecond' hne node hnode

/-- With a sequence that was not there before, no other list is touched. -/
theorem realizes_update (h : Represents links lists) (hnew : lists head ≠ some nodes')
    (hring : IsRing links' head nodes')
    (hnodes : ∀ other others, lists other = some others → other ≠ head →
      ∀ node ∈ head :: nodes', node ∉ other :: others)
    (hagree : ∀ other others, lists other = some others → other ≠ head →
      ∀ node ∈ other :: others, links.AgreeAt links' node) :
    Realizes links links' lists (Function.update lists head (some nodes')) where
  represents := h.update hring hnodes hagree
  elsewhere other others hother hother' := by
    apply hagree other others hother
    rintro rfl
    rw [Function.update_self] at hother'
    exact hnew (hother.trans hother'.symm)

/-- A node on no list made the head of an empty one. -/
theorem reset (h : Represents links lists) (hnode : OnNoList lists node) :
    Realizes links (links.reset node) lists (Function.update lists node (some [])) := by
  apply h.realizes_update (hnode.ne_some []) (IsRing.reset links node)
  case hnodes =>
    intro other others hother _ node' hnode'
    rw [List.mem_singleton.mp hnode']
    exact hnode other others hother
  case hagree =>
    intro other others hother _ node' hnode'
    exact Links.agreeAt_reset (ne_of_mem_of_not_mem hnode' (hnode other others hother))

/-- A node on no list linked into a ring. -/
theorem insert (h : Represents links lists) (hlist : lists head = some nodes)
    (hnode : OnNoList lists node) (hring : IsRing links' head nodes')
    (hmem : ∀ other, other ∈ nodes' ↔ other = node ∨ other ∈ nodes)
    (hframe : ∀ other ∉ node :: head :: nodes, links.AgreeAt links' other) :
    Realizes links links' lists (Function.update lists head (some nodes')) := by
  apply h.realizes_update
  case hnew =>
    rw [hlist, Ne, Option.some_inj]
    rintro rfl
    exact hnode head nodes hlist (List.mem_cons_of_mem _ ((hmem node).mpr (Or.inl rfl)))
  case hring => exact hring
  case hnodes =>
    intro other others hother hne inner hinner hin
    rcases List.mem_cons.mp hinner with rfl | hinner
    · exact h.disjoint inner nodes other others hlist hother hne inner hin List.mem_cons_self
    · rcases (hmem inner).mp hinner with rfl | hinner
      · exact hnode other others hother hin
      · exact h.disjoint head nodes other others hlist hother hne inner hin
          (List.mem_cons_of_mem _ hinner)
  case hagree =>
    intro other others hother hne inner hinner
    refine hframe inner fun hin ↦ ?_
    rcases List.mem_cons.mp hin with rfl | hin
    · exact hnode other others hother hinner
    · exact h.disjoint head nodes other others hlist hother hne inner hinner hin

/-- An inner node taken out of its ring. -/
theorem unlink (h : Represents links lists) (hlist : lists head = some (before ++ node :: after)) :
    Realizes links (links.unlink node) lists
      (Function.update lists head (some (before ++ after))) := by
  have hring := h.ring head _ hlist
  apply h.realizes_update
  case hnew =>
    rw [hlist, Ne, Option.some_inj]
    intro hsame
    have hlength := congrArg List.length hsame
    simp at hlength
  case hring => exact hring.unlink_node
  case hnodes =>
    intro other others hother hne inner hinner hin
    refine h.disjoint head _ other others hlist hother hne inner hin ?_
    simp only [List.mem_cons, List.mem_append] at hinner ⊢
    tauto
  case hagree =>
    intro other others hother hne inner hinner
    have hapart := h.disjoint head _ other others hlist hother hne inner hinner
    exact hring.agreeAt_unlink (by simp) hapart

/-- The node taken out is on no list. -/
theorem unlink_onNoList (h : Represents links lists)
    (hlist : lists head = some (before ++ node :: after)) :
    OnNoList (Function.update lists head (some (before ++ after))) node := by
  have hmem : node ∈ head :: (before ++ node :: after) := by simp
  intro other others hother hin
  rcases update_some_eq_some.mp hother with ⟨rfl, rfl⟩ | ⟨hne, hother⟩
  · have hnodup := (h.ring other _ hlist).rotate.nodup
    simp only [List.nodup_cons, List.mem_append, List.mem_cons] at hnodup hin
    tauto
  · exact h.disjoint head _ other others hlist hother hne node hin hmem

section Splice

variable {list : N} {others : List N}

/-- Moving the nodes of one ring to another touches the two rings only. -/
theorem agreeAt_splice (h : Represents links lists) (hlist : lists list = some nodes)
    (hhead : lists head = some others) :
    ∀ other rest, lists other = some rest → other ≠ list → other ≠ head →
      ∀ node ∈ other :: rest,
        links.AgreeAt (links.splice list head (links.next head)) node := by
  intro other rest hother hotherList hotherHead node hnode
  have hnotList := h.disjoint list nodes other rest hlist hother hotherList node hnode
  have hnotHead := h.disjoint head others other rest hhead hother hotherHead node hnode
  have hlistRing := h.ring list nodes hlist
  apply Links.agreeAt_splice
  case hbefore => exact fun heq ↦ hnotHead (heq ▸ List.mem_cons_self)
  case hafter => exact fun heq ↦ hnotHead (heq ▸ (h.ring head others hhead).next_mem_of_head.1)
  case hnext => exact fun heq ↦ hnotList (heq ▸ hlistRing.next_mem_of_head.1)
  case hprev => exact fun heq ↦ hnotList (heq ▸ hlistRing.prev_mem_of_head.1)

/-- The heap while the nodes of `list` are on the other ring and `list` is no head. -/
theorem splice_forget (h : Represents links lists) (hlist : lists list = some nodes)
    (hhead : lists head = some others) (hne : list ≠ head) (hnonempty : nodes ≠ []) :
    Represents (links.splice list head (links.next head))
      (Function.update (Function.update lists list none) head (some (nodes ++ others))) := by
  have hapart := h.disjoint head others list nodes hhead hlist hne
  have hspliced := (h.ring list nodes hlist).splice_head (h.ring head others hhead) hnonempty hapart
  apply (h.forget list).update hspliced
  case hnodes =>
    intro other rest hother hotherHead node hnode hin
    obtain ⟨hotherList, hother⟩ := update_none_eq_some.mp hother
    have hnotList := h.disjoint list nodes other rest hlist hother hotherList node hin
    have hnotHead := h.disjoint head others other rest hhead hother hotherHead node hin
    simp only [List.mem_cons, List.mem_append] at hnode hnotList hnotHead
    tauto
  case hagree =>
    intro other rest hother hotherHead
    obtain ⟨hotherList, hother⟩ := update_none_eq_some.mp hother
    exact h.agreeAt_splice hlist hhead other rest hother hotherList hotherHead

theorem splice_onNoList (h : Represents links lists) (hlist : lists list = some nodes)
    (hhead : lists head = some others) (hne : list ≠ head) :
    OnNoList (Function.update (Function.update lists list none) head (some (nodes ++ others)))
      list := by
  apply OnNoList.update
  case hnode =>
    intro other rest hother hin
    obtain ⟨hotherList, hother⟩ := update_none_eq_some.mp hother
    exact h.disjoint list nodes other rest hlist hother hotherList list hin List.mem_cons_self
  case hnotMem =>
    have hnotHead := h.disjoint head others list nodes hhead hlist hne list List.mem_cons_self
    have hnotMem := (h.ring list nodes hlist).head_notMem
    simp only [List.mem_cons, List.mem_append] at hnotHead ⊢
    tauto

/-- The nodes of one ring put at the front of another, and the first left empty. -/
theorem splice (h : Represents links lists) (hlist : lists list = some nodes)
    (hhead : lists head = some others) (hne : list ≠ head) (hnonempty : nodes ≠ []) :
    Realizes links ((links.splice list head (links.next head)).reset list) lists
      (Function.update (Function.update lists head (some (nodes ++ others))) list (some [])) := by
  constructor
  case represents =>
    have hforget := h.splice_forget hlist hhead hne hnonempty
    have hreset := (hforget.reset (h.splice_onNoList hlist hhead hne)).represents
    rwa [Function.update_comm hne, Function.update_idem] at hreset
  case elsewhere =>
    intro other rest hother hother' node hnode
    have hotherList : other ≠ list := by
      rintro rfl
      rw [Function.update_self] at hother'
      exact hnonempty (Option.some_inj.mp (hlist.symm.trans (hother.trans hother'.symm)))
    have hotherHead : other ≠ head := by
      rintro rfl
      rw [Function.update_of_ne hotherList, Function.update_self] at hother'
      have hsame := Option.some_inj.mp (hhead.symm.trans (hother.trans hother'.symm))
      exact hnonempty (List.self_eq_append_left.mp hsame)
    have hnotList := h.disjoint list nodes other rest hlist hother hotherList node hnode
    have hspliced := h.agreeAt_splice hlist hhead other rest hother hotherList hotherHead node hnode
    exact hspliced.trans (Links.agreeAt_reset fun heq ↦ hnotList (heq ▸ List.mem_cons_self))

end Splice

end Represents

end DecidableEq

end ProjectSensor.Library.LinkedRing

import ProjectSensor.Library.LinkedRing

/-!
# The service list

The assignments of `list_init`, `list_insert_after`, `list_insert_before`, `list_del` and
`list_splice_init`, in the order of the source.  Each is one of the ring operations, so that a
well-formed circular list keeps being one under the rules of the ring.  `list_find` goes around the
ring once.
-/

open ProjectSensor.Library.LinkedRing

namespace ProjectSensor.Service

variable {N : Type*} [DecidableEq N]

def listInit (links : Links N) (l : N) : Links N :=
  let links := links.setNext l l
  links.setPrev l l

def listInsertAfter (links : Links N) (l n : N) : Links N :=
  let links := links.setPrev (links.next l) n
  let links := links.setNext n (links.next l)
  let links := links.setNext l n
  links.setPrev n l

def listInsertBefore (links : Links N) (l n : N) : Links N :=
  let links := links.setNext (links.prev l) n
  let links := links.setPrev n (links.prev l)
  let links := links.setPrev l n
  links.setNext n l

def listDel (links : Links N) (n : N) : Links N :=
  let links := links.setPrev (links.next n) (links.prev n)
  let links := links.setNext (links.prev n) (links.next n)
  let links := links.setNext n n
  links.setPrev n n

def listEmpty (links : Links N) (l : N) : Bool := links.next l = l

/-- The body of `__list_splice`: the nodes of `list` put in between `prev` and `next`. -/
def listSpliceBetween (links : Links N) (list prev next : N) : Links N :=
  let first := links.next list
  let last := links.prev list
  let links := links.setPrev first prev
  let links := links.setNext prev first
  let links := links.setNext last next
  links.setPrev next last

def listSpliceInit (links : Links N) (list head : N) : Links N :=
  if listEmpty links list then links
  else listInit (listSpliceBetween links list head (links.next head)) list

/-- `list_for_each` from `it` on, up to the head or to `node`; `none` when the loop is still running
after `fuel` turns, and `some none` is the null pointer. -/
def listFindFrom (links : Links N) (head node : N) : ℕ → N → Option (Option N)
  | 0, _ => none
  | fuel + 1, it =>
      if it = head then some none
      else if it = node then some (some it)
      else listFindFrom links head node fuel (links.next it)

def listFind (links : Links N) (fuel : ℕ) (head node : N) : Option (Option N) :=
  listFindFrom links head node fuel (links.next head)

theorem listInsertAfter_eq (links : Links N) (l n : N) :
    listInsertAfter links l n = links.insertAfter l n := rfl

/-- Reading the predecessor back after its `next` was changed gives the same node. -/
theorem listInsertBefore_eq (links : Links N) (l n : N) :
    listInsertBefore links l n = links.insertBefore l n := rfl

/-- `n->m_prev` is read again after `n->m_next->m_prev` was written, also when both are `n`. -/
theorem listDel_eq (links : Links N) (n : N) : listDel links n = links.unlink n := by
  have hprev : (links.setPrev (links.next n) (links.prev n)).prev n = links.prev n := by
    rcases eq_or_ne n (links.next n) with hself | hne
    · simp [Function.update_apply]
    · simp [hne]
  simp only [listDel, hprev, Links.unlink, Links.reset, Links.setPrev_next]

theorem listSpliceInit_of_nonempty {links : Links N} {list : N} (head : N)
    (hne : links.next list ≠ list) :
    listSpliceInit links list head =
      (links.splice list head (links.next head)).reset list := by
  simp only [listSpliceInit, listEmpty, hne, decide_false, Bool.false_eq_true, if_false]
  rfl

theorem listSpliceInit_of_empty {links : Links N} {list : N} (head : N)
    (hempty : links.next list = list) : listSpliceInit links list head = links := by
  simp [listSpliceInit, listEmpty, hempty]

theorem listFindFrom_eq {links : Links N} {head node it : N} {nodes : List N} {fuel : ℕ}
    (htrail : Trail links it nodes head) (hhead : head ∉ nodes) (hfuel : nodes.length < fuel) :
    listFindFrom links head node fuel it = some (if node ∈ nodes then some node else none) := by
  induction nodes generalizing it fuel with
  | nil =>
      obtain ⟨fuel, rfl⟩ := Nat.exists_eq_succ_of_ne_zero (Nat.ne_zero_of_lt hfuel)
      rw [show it = head from htrail]
      simp [listFindFrom]
  | cons first nodes ih =>
      obtain ⟨fuel, rfl⟩ := Nat.exists_eq_succ_of_ne_zero (Nat.ne_zero_of_lt hfuel)
      obtain ⟨hne, hnotMem⟩ := not_or.mp (mt List.mem_cons.mpr hhead)
      rw [htrail.1, listFindFrom, if_neg (Ne.symm hne)]
      by_cases hfound : first = node
      · simp [hfound]
      · rw [if_neg hfound, ih htrail.2 hnotMem (Nat.lt_of_succ_lt_succ hfuel)]
        simp [Ne.symm hfound]

/-- With one turn for each node and one for the head, the search finds a node exactly on its
list. -/
theorem listFind_eq {links : Links N} {head : N} {nodes : List N} (hring : IsRing links head nodes)
    (node : N) {fuel : ℕ} (hfuel : nodes.length < fuel) :
    listFind links fuel head node = some (if node ∈ nodes then some node else none) :=
  listFindFrom_eq hring.path.trail hring.head_notMem hfuel

/-- Moving all the nodes of one list to an empty one. -/
theorem listSpliceInit_rings {links : Links N} {list head : N} {nodes : List N}
    (hlist : IsRing links list nodes) (hhead : IsRing links head [])
    (hdisj : head ∉ list :: nodes) :
    IsRing (listSpliceInit links list head) list [] ∧
      IsRing (listSpliceInit links list head) head nodes := by
  by_cases hne : links.next list = list
  · have hnil := hlist.next_head_eq_iff.mp hne
    rw [listSpliceInit_of_empty head hne, hnil]
    exact ⟨hnil ▸ hlist, hhead⟩
  · have hnodes : nodes ≠ [] := fun hnil ↦ hne (hlist.next_head_eq_iff.mpr hnil)
    rw [listSpliceInit_of_nonempty head hne]
    refine ⟨IsRing.reset _ _, ?_⟩
    have hapart : ∀ node ∈ list :: nodes, node ∉ [head] := by
      intro node hnode hin
      rw [List.mem_singleton.mp hin] at hnode
      exact hdisj hnode
    have hspliced := hlist.splice_head hhead hnodes hapart
    rw [List.append_nil] at hspliced
    refine hspliced.of_agreeAt fun node hnode ↦ Links.agreeAt_reset fun heq ↦ ?_
    subst heq
    rcases List.mem_cons.mp hnode with heq | hmem
    · exact hdisj (heq ▸ List.mem_cons_self)
    · exact hlist.head_notMem hmem

end ProjectSensor.Service

import Mathlib.Data.List.Nodup
import Mathlib.Logic.Function.Basic

/-!
# Intrusive circular lists as rings of links

Every node carries a `next` and a `prev` link and nothing else.  A ring is a head together with
the nodes met by following `next` from it, each link mirrored by `prev`.  `IsRing` is the
well-formedness of one ring; two rings that share no node are changed independently because each
of them only depends on the links of its own nodes (`IsRing.congr`).  A ring may be read from any
of its nodes (`IsRing.rotate`), so insertion and removal are proved once, at the head.
-/

namespace ProjectSensor.Library.LinkedRing

/-- The two link fields of every node. -/
@[ext]
structure Links (N : Type*) where
  next : N → N
  prev : N → N

namespace Links

variable {N : Type*} [DecidableEq N]

def setNext (links : Links N) (node target : N) : Links N :=
  { links with next := Function.update links.next node target }

def setPrev (links : Links N) (node target : N) : Links N :=
  { links with prev := Function.update links.prev node target }

@[simp]
theorem setNext_next (links : Links N) (node target : N) :
    (links.setNext node target).next = Function.update links.next node target := rfl

@[simp]
theorem setNext_prev (links : Links N) (node target : N) :
    (links.setNext node target).prev = links.prev := rfl

@[simp]
theorem setPrev_next (links : Links N) (node target : N) :
    (links.setPrev node target).next = links.next := rfl

@[simp]
theorem setPrev_prev (links : Links N) (node target : N) :
    (links.setPrev node target).prev = Function.update links.prev node target := rfl

/-- `node` linked in between `place` and its successor. -/
def insertAfter (links : Links N) (place node : N) : Links N :=
  (((links.setPrev (links.next place) node).setNext node (links.next place)).setNext
    place node).setPrev node place

/-- `node` linked in between `place` and its predecessor. -/
def insertBefore (links : Links N) (place node : N) : Links N :=
  (((links.setNext (links.prev place) node).setPrev node (links.prev place)).setPrev
    place node).setNext node place

/-- A node pointing at itself both ways. -/
def reset (links : Links N) (node : N) : Links N := (links.setNext node node).setPrev node node

/-- The neighbours of `node` joined, and `node` left pointing at itself. -/
def unlink (links : Links N) (node : N) : Links N :=
  ((links.setPrev (links.next node) (links.prev node)).setNext
    (links.prev node) (links.next node)).reset node

/-- The nodes of the ring of `list` put in between `before` and `after`; the head `list` keeps its
own links. -/
def splice (links : Links N) (list before after : N) : Links N :=
  (((links.setPrev (links.next list) before).setNext before (links.next list)).setNext
    (links.prev list) after).setPrev after (links.prev list)

/-- The two links read at `node` are the same. -/
def AgreeAt (links links' : Links N) (node : N) : Prop :=
  links'.next node = links.next node ∧ links'.prev node = links.prev node

theorem agreeAt_insertAfter {links : Links N} {place node other : N} (hnode : other ≠ node)
    (hplace : other ≠ place) (hnext : other ≠ links.next place) :
    links.AgreeAt (links.insertAfter place node) other := by
  simp [AgreeAt, insertAfter, hnode, hplace, hnext]

theorem agreeAt_insertBefore {links : Links N} {place node other : N} (hnode : other ≠ node)
    (hplace : other ≠ place) (hprev : other ≠ links.prev place) :
    links.AgreeAt (links.insertBefore place node) other := by
  simp [AgreeAt, insertBefore, hnode, hplace, hprev]

theorem agreeAt_reset {links : Links N} {node other : N} (hnode : other ≠ node) :
    links.AgreeAt (links.reset node) other := by
  simp [AgreeAt, reset, hnode]

theorem agreeAt_unlink {links : Links N} {node other : N} (hnode : other ≠ node)
    (hnext : other ≠ links.next node) (hprev : other ≠ links.prev node) :
    links.AgreeAt (links.unlink node) other := by
  simp [AgreeAt, unlink, reset, hnode, hnext, hprev]

theorem agreeAt_splice {links : Links N} {list before after other : N} (hbefore : other ≠ before)
    (hafter : other ≠ after) (hnext : other ≠ links.next list) (hprev : other ≠ links.prev list) :
    links.AgreeAt (links.splice list before after) other := by
  simp [AgreeAt, splice, hbefore, hafter, hnext, hprev]

omit [DecidableEq N] in
theorem AgreeAt.trans {links links' links'' : Links N} {node : N} (h : links.AgreeAt links' node)
    (h' : links'.AgreeAt links'' node) : links.AgreeAt links'' node :=
  ⟨h'.1.trans h.1, h'.2.trans h.2⟩

/-- Inserting before a place is inserting after its predecessor. -/
theorem insertBefore_eq_insertAfter {links : Links N} {place node : N}
    (hback : links.next (links.prev place) = place) (hplace : node ≠ place)
    (hprev : node ≠ links.prev place) :
    links.insertBefore place node = links.insertAfter (links.prev place) node := by
  ext other
  · simp only [insertBefore, insertAfter, hback, setNext_next, setPrev_next]
    by_cases hnode : other = node
    · simp [hnode, hprev]
    · by_cases hother : other = links.prev place <;> simp [hnode, hother, hprev.symm]
  · simp only [insertBefore, insertAfter, hback, setNext_prev, setPrev_prev]
    by_cases hnode : other = node
    · simp [hnode, hplace]
    · by_cases hother : other = place <;> simp [hnode, hother, hplace.symm]

end Links

variable {N : Type*}

/-- Following `next` from `start` runs through `nodes` and arrives at `stop`, each link mirrored
by `prev`. -/
def Path (links : Links N) : N → List N → N → Prop
  | start, [], stop => links.next start = stop ∧ links.prev stop = start
  | start, node :: nodes, stop =>
      (links.next start = node ∧ links.prev node = start) ∧ Path links node nodes stop

theorem path_append (links : Links N) (start middle stop : N) (before after : List N) :
    Path links start (before ++ middle :: after) stop ↔
      Path links start before middle ∧ Path links middle after stop := by
  induction before generalizing start with
  | nil => simp [Path]
  | cons node before ih => simp [Path, ih, and_assoc]

/-- A path reads `next` on every node but the last and `prev` on every node but the first. -/
theorem Path.congr {links links' : Links N} {start stop : N} {nodes : List N}
    (hnext : ∀ node ∈ start :: nodes, links'.next node = links.next node)
    (hprev : ∀ node ∈ nodes ++ [stop], links'.prev node = links.prev node)
    (hpath : Path links start nodes stop) : Path links' start nodes stop := by
  induction nodes generalizing start with
  | nil =>
      exact ⟨(hnext start (by simp)).trans hpath.1, (hprev stop (by simp)).trans hpath.2⟩
  | cons node nodes ih =>
      refine ⟨⟨(hnext start (by simp)).trans hpath.1.1,
        (hprev node (by simp)).trans hpath.1.2⟩, ?_⟩
      exact ih (fun other h ↦ hnext other (List.mem_cons_of_mem _ h))
        (fun other h ↦ hprev other (List.mem_cons_of_mem _ h)) hpath.2

/-- A path with another node in place of its start: only the first of its links changes. -/
theorem Path.restart {links links' : Links N} {start start' stop : N} {nodes : List N}
    (hpath : Path links start nodes stop) (hnodup : (nodes ++ [stop]).Nodup)
    (hfirst : links'.next start' = links.next start)
    (hback : links'.prev (links.next start) = start')
    (hnext : ∀ node ∈ nodes, links'.next node = links.next node)
    (hprev : ∀ node ∈ nodes ++ [stop], node ≠ links.next start →
      links'.prev node = links.prev node) : Path links' start' nodes stop := by
  cases nodes with
  | nil =>
      rw [hpath.1] at hfirst hback
      exact ⟨hfirst, hback⟩
  | cons node nodes =>
      have hnotMem := (List.nodup_cons.mp hnodup).1
      rw [hpath.1.1] at hfirst hback hprev
      refine ⟨⟨hfirst, hback⟩, hpath.2.congr hnext fun other hother ↦ ?_⟩
      exact hprev other (List.mem_cons_of_mem _ hother) (ne_of_mem_of_not_mem hother hnotMem)

/-- The first node of a path, or its end point when it has no inner node. -/
theorem Path.next_start {links : Links N} {start stop : N} {nodes : List N}
    (hpath : Path links start nodes stop) : links.next start = nodes.headD stop := by
  cases nodes with
  | nil => exact hpath.1
  | cons node nodes => exact hpath.1.1

/-- The last node of a path, or its starting point when it has no inner node. -/
theorem Path.prev_stop {links : Links N} {start stop : N} {nodes : List N}
    (hpath : Path links start nodes stop) : links.prev stop = nodes.getLastD start := by
  induction nodes generalizing start with
  | nil => exact hpath.2
  | cons node nodes ih => rw [ih hpath.2, List.getLastD_cons]

/-- A well-formed ring: `head` and the nodes around it, all distinct. -/
structure IsRing (links : Links N) (head : N) (nodes : List N) : Prop where
  path : Path links head nodes head
  nodup : (head :: nodes).Nodup

theorem IsRing.nodes_nodup {links : Links N} {head : N} {nodes : List N}
    (hring : IsRing links head nodes) : nodes.Nodup := (List.nodup_cons.mp hring.nodup).2

theorem IsRing.head_notMem {links : Links N} {head : N} {nodes : List N}
    (hring : IsRing links head nodes) : head ∉ nodes := (List.nodup_cons.mp hring.nodup).1

theorem IsRing.path_nodup {links : Links N} {head : N} {nodes : List N}
    (hring : IsRing links head nodes) : (nodes ++ [head]).Nodup :=
  (List.perm_append_singleton head nodes).nodup_iff.mpr hring.nodup

theorem IsRing.congr {links links' : Links N} {head : N} {nodes : List N}
    (hnext : ∀ node ∈ head :: nodes, links'.next node = links.next node)
    (hprev : ∀ node ∈ head :: nodes, links'.prev node = links.prev node)
    (hring : IsRing links head nodes) : IsRing links' head nodes := by
  refine ⟨hring.path.congr hnext (fun node hnode ↦ hprev node ?_), hring.nodup⟩
  simpa [or_comm] using hnode

theorem isRing_nil_iff (links : Links N) (head : N) :
    IsRing links head [] ↔ links.next head = head ∧ links.prev head = head :=
  ⟨fun hring ↦ hring.path, fun hself ↦ ⟨hself, by simp⟩⟩

/-- The ring read from another of its nodes. -/
theorem IsRing.rotate {links : Links N} {head node : N} {before after : List N}
    (hring : IsRing links head (before ++ node :: after)) :
    IsRing links node (after ++ head :: before) := by
  constructor
  · have hsplit := (path_append links head node head before after).mp hring.path
    exact (path_append links node head node after before).mpr ⟨hsplit.2, hsplit.1⟩
  · have hperm : (node :: (after ++ head :: before)).Perm (head :: (before ++ node :: after)) :=
      calc
        (node :: (after ++ head :: before)).Perm ((head :: before) ++ (node :: after)) :=
          @List.perm_append_comm _ (node :: after) (head :: before)
        _ = head :: (before ++ node :: after) := rfl
    exact hperm.nodup_iff.mpr hring.nodup

theorem IsRing.next_head {links : Links N} {head : N} {nodes : List N}
    (hring : IsRing links head nodes) : links.next head = nodes.headD head :=
  hring.path.next_start

theorem IsRing.prev_head {links : Links N} {head : N} {nodes : List N}
    (hring : IsRing links head nodes) : links.prev head = nodes.getLastD head :=
  hring.path.prev_stop

/-- A ring is empty exactly when its head points at itself. -/
theorem IsRing.next_head_eq_iff {links : Links N} {head : N} {nodes : List N}
    (hring : IsRing links head nodes) : links.next head = head ↔ nodes = [] := by
  cases nodes with
  | nil => simpa using hring.path.1
  | cons node nodes =>
      have hne : node ≠ head := fun heq ↦ hring.head_notMem (by simp [heq])
      simpa [hring.path.1.1] using hne

theorem IsRing.next_mem_of_head {links : Links N} {head : N} {nodes : List N}
    (hring : IsRing links head nodes) :
    links.next head ∈ head :: nodes ∧ links.prev (links.next head) = head := by
  cases nodes with
  | nil => simpa [hring.path.1] using hring.path.2
  | cons node nodes =>
      have hnext := hring.path.1.1
      exact ⟨by simp [hnext], by rw [hnext]; exact hring.path.1.2⟩

theorem IsRing.prev_mem_of_head {links : Links N} {head : N} {nodes : List N}
    (hring : IsRing links head nodes) :
    links.prev head ∈ head :: nodes ∧ links.next (links.prev head) = head := by
  refine ⟨hring.prev_head ▸ List.getLastD_mem_cons, ?_⟩
  rcases List.eq_nil_or_concat' nodes with rfl | ⟨init, last, rfl⟩
  · rw [hring.prev_head, List.getLastD_nil]
    exact hring.path.1
  · rw [hring.prev_head, List.getLastD_concat]
    exact ((path_append links head last head init []).mp hring.path).2.1

/-- The nodes of a ring read from another of its nodes. -/
theorem IsRing.exists_rotation {links : Links N} {head node : N} {nodes : List N}
    (hring : IsRing links head nodes) (hnode : node ∈ head :: nodes) :
    ∃ others, IsRing links node others ∧ ∀ other, other ∈ node :: others ↔
      other ∈ head :: nodes := by
  rcases List.mem_cons.mp hnode with rfl | hmem
  · exact ⟨nodes, hring, fun _ ↦ Iff.rfl⟩
  · obtain ⟨before, after, rfl⟩ := List.append_of_mem hmem
    refine ⟨after ++ head :: before, hring.rotate, fun other ↦ ?_⟩
    simp only [List.mem_cons, List.mem_append]
    tauto

/-- The successor of a node of the ring is in the ring and points back. -/
theorem IsRing.next_mem {links : Links N} {head node : N} {nodes : List N}
    (hring : IsRing links head nodes) (hnode : node ∈ head :: nodes) :
    links.next node ∈ head :: nodes ∧ links.prev (links.next node) = node := by
  obtain ⟨others, hothers, hmem⟩ := hring.exists_rotation hnode
  exact ⟨(hmem _).mp hothers.next_mem_of_head.1, hothers.next_mem_of_head.2⟩

/-- The predecessor of a node of the ring is in the ring and points forward to it. -/
theorem IsRing.prev_mem {links : Links N} {head node : N} {nodes : List N}
    (hring : IsRing links head nodes) (hnode : node ∈ head :: nodes) :
    links.prev node ∈ head :: nodes ∧ links.next (links.prev node) = node := by
  obtain ⟨others, hothers, hmem⟩ := hring.exists_rotation hnode
  exact ⟨(hmem _).mp hothers.prev_mem_of_head.1, hothers.prev_mem_of_head.2⟩

/-- A ring only depends on the links of its own nodes. -/
theorem IsRing.of_agreeAt {links links' : Links N} {head : N} {nodes : List N}
    (hring : IsRing links head nodes) (hagree : ∀ node ∈ head :: nodes, links.AgreeAt links' node) :
    IsRing links' head nodes :=
  hring.congr (fun node hnode ↦ (hagree node hnode).1) (fun node hnode ↦ (hagree node hnode).2)

variable [DecidableEq N]

/-- A fresh node linked in right after the head. -/
theorem IsRing.insertAfter_head {links : Links N} {head node : N} {nodes : List N}
    (hring : IsRing links head nodes) (hfresh : node ∉ head :: nodes) :
    IsRing (links.insertAfter head node) head (node :: nodes) := by
  obtain ⟨hnode, hnotMem⟩ := not_or.mp (mt List.mem_cons.mpr hfresh)
  have hnodeNext : node ≠ links.next head :=
    (ne_of_mem_of_not_mem hring.next_mem_of_head.1 hfresh).symm
  constructor
  · refine ⟨by simp [Links.insertAfter], ?_⟩
    apply hring.path.restart hring.path_nodup
    case hfirst => simp [Links.insertAfter, hnode]
    case hback => simp [Links.insertAfter, hnodeNext.symm]
    case hnext =>
      intro other hother
      have hotherHead := ne_of_mem_of_not_mem hother hring.head_notMem
      have hotherNode := ne_of_mem_of_not_mem hother hnotMem
      simp [Links.insertAfter, hotherHead, hotherNode]
    case hprev =>
      intro other hother hotherNext
      have hotherNode : other ≠ node := by
        rintro rfl
        exact hfresh (by simpa [or_comm] using hother)
      simp [Links.insertAfter, hotherNext, hotherNode]
  · exact ((List.Perm.swap node head nodes).nodup_iff.mpr (hring.nodup.cons hfresh))

/-- Removing the node behind the head. -/
theorem IsRing.unlink_next {links : Links N} {head node : N} {nodes : List N}
    (hring : IsRing links head (node :: nodes)) : IsRing (links.unlink node) head nodes := by
  have hlast : links.prev node = head := hring.path.1.2
  obtain ⟨hnotMem, hnodup⟩ := List.nodup_cons.mp hring.path_nodup
  have hhead : head ≠ node := fun heq ↦ hring.head_notMem (heq ▸ List.mem_cons_self)
  have hnodeNext : links.next node ≠ node := by
    have hsplit : IsRing links head ([] ++ node :: nodes) := hring
    exact mt hsplit.rotate.next_head_eq_iff.mp (List.append_ne_nil_of_right_ne_nil _ (by simp))
  constructor
  · apply hring.path.2.restart hnodup
    case hfirst => simp [Links.unlink, Links.reset, hlast, hhead]
    case hback => simp [Links.unlink, Links.reset, hlast, hnodeNext]
    case hnext =>
      intro other hother
      have hotherNode : other ≠ node :=
        ne_of_mem_of_not_mem (List.mem_append_left _ hother) hnotMem
      have hotherHead : other ≠ head :=
        ne_of_mem_of_not_mem (List.mem_cons_of_mem _ hother) hring.head_notMem
      simp [Links.unlink, Links.reset, hlast, hotherNode, hotherHead]
    case hprev =>
      intro other hother hotherNext
      have hotherNode := ne_of_mem_of_not_mem hother hnotMem
      simp [Links.unlink, Links.reset, hotherNode, hotherNext]
  · exact (List.perm_append_singleton head nodes).nodup_iff.mp hnodup

theorem IsRing.reset (links : Links N) (node : N) : IsRing (links.reset node) node [] :=
  (isRing_nil_iff _ _).mpr (by simp [Links.reset])

/-- A fresh node linked in right before the head ends the ring. -/
theorem IsRing.insertBefore_head {links : Links N} {head node : N} {nodes : List N}
    (hring : IsRing links head nodes) (hfresh : node ∉ head :: nodes) :
    IsRing (links.insertBefore head node) head (nodes ++ [node]) := by
  obtain ⟨hprevMem, hback⟩ := hring.prev_mem_of_head
  have hprev : node ≠ links.prev head := fun heq ↦ hfresh (heq ▸ hprevMem)
  rw [Links.insertBefore_eq_insertAfter hback (fun heq ↦ hfresh (by simp [heq])) hprev]
  rcases List.eq_nil_or_concat' nodes with rfl | ⟨init, last, rfl⟩
  · rw [hring.prev_head, List.getLastD_nil]
    exact hring.insertAfter_head hfresh
  · rw [hring.prev_head, List.getLastD_concat]
    have hlast : IsRing links last ([] ++ head :: init) := hring.rotate
    have hnotMem : node ∉ last :: ([] ++ head :: init) := by
      simpa [or_comm, or_assoc, or_left_comm] using hfresh
    have hlinked : IsRing _ last ([node] ++ head :: init) := hlast.insertAfter_head hnotMem
    have hhead : IsRing _ head (init ++ last :: [node]) := hlinked.rotate
    simpa using hhead

/-- A fresh node linked in right after an inner node. -/
theorem IsRing.insertAfter_node {links : Links N} {head place node : N} {before after : List N}
    (hring : IsRing links head (before ++ place :: after))
    (hfresh : node ∉ head :: (before ++ place :: after)) :
    IsRing (links.insertAfter place node) head (before ++ place :: node :: after) := by
  have hplace := hring.rotate
  have hnotMem : node ∉ place :: (after ++ head :: before) := by
    simp only [List.mem_cons, List.mem_append] at hfresh ⊢
    tauto
  have hlinked : IsRing _ place ((node :: after) ++ head :: before) :=
    hplace.insertAfter_head hnotMem
  exact hlinked.rotate

/-- A fresh node linked in right before an inner node. -/
theorem IsRing.insertBefore_node {links : Links N} {head place node : N} {before after : List N}
    (hring : IsRing links head (before ++ place :: after))
    (hfresh : node ∉ head :: (before ++ place :: after)) :
    IsRing (links.insertBefore place node) head (before ++ node :: place :: after) := by
  have hplace := hring.rotate
  have hnotMem : node ∉ place :: (after ++ head :: before) := by
    simp only [List.mem_cons, List.mem_append] at hfresh ⊢
    tauto
  have hlinked := hplace.insertBefore_head hnotMem
  rw [List.append_assoc, List.cons_append] at hlinked
  simpa using hlinked.rotate

/-- The first entry that satisfies a test heads what is left when the others are dropped. -/
theorem find?_eq_head?_dropWhile {α : Type*} (entries : List α) (test : α → Bool) :
    entries.find? test = (entries.dropWhile (!test ·)).head? := by
  induction entries with
  | nil => rfl
  | cons entry entries ih => cases htest : test entry <;> simp [htest, ih]

/-- A fresh node linked in before the first entry that satisfies a test, or else at the end. -/
theorem IsRing.insertBefore_find {α : Type*} {links : Links N} {head node : N} {nodeOf : α → N}
    {entries : List α} (hring : IsRing links head (entries.map nodeOf))
    (hfresh : node ∉ head :: entries.map nodeOf) (test : α → Bool) :
    IsRing (links.insertBefore (((entries.find? test).map nodeOf).getD head) node) head
      ((entries.takeWhile (!test ·)).map nodeOf ++
        node :: (entries.dropWhile (!test ·)).map nodeOf) := by
  have hsplit : entries.takeWhile (!test ·) ++ entries.dropWhile (!test ·) = entries :=
    List.takeWhile_append_dropWhile
  rw [find?_eq_head?_dropWhile]
  cases hdrop : entries.dropWhile (!test ·) with
  | nil =>
      rw [hdrop, List.append_nil] at hsplit
      rw [hsplit]
      exact hring.insertBefore_head hfresh
  | cons place after =>
      rw [← hsplit, hdrop, List.map_append, List.map_cons] at hring hfresh
      exact IsRing.insertBefore_node hring hfresh

/-- An inner node taken out of its ring. -/
theorem IsRing.unlink_node {links : Links N} {head node : N} {before after : List N}
    (hring : IsRing links head (before ++ node :: after)) :
    IsRing (links.unlink node) head (before ++ after) := by
  rcases List.eq_nil_or_concat' before with rfl | ⟨init, last, rfl⟩
  · exact hring.unlink_next
  · rw [List.append_assoc, List.cons_append, List.nil_append] at hring ⊢
    have hlast : IsRing links last (node :: (after ++ head :: init)) := hring.rotate
    exact hlast.unlink_next.rotate

/-- The nodes of one ring put at the front of another. -/
theorem IsRing.splice_head {links : Links N} {list head : N} {nodes others : List N}
    (hlist : IsRing links list nodes) (hhead : IsRing links head others) (hne : nodes ≠ [])
    (hdisj : ∀ node ∈ list :: nodes, node ∉ head :: others) :
    IsRing (links.splice list head (links.next head)) head (nodes ++ others) := by
  obtain ⟨init, last, rfl⟩ := (List.eq_nil_or_concat' nodes).resolve_left hne
  have hlast : links.prev list = last := by rw [hlist.prev_head, List.getLastD_concat]
  have hapart {node other : N} (hnode : node ∈ list :: (init ++ [last]))
      (hother : other ∈ head :: others) : node ≠ other :=
    (ne_of_mem_of_not_mem hother (hdisj node hnode)).symm
  have hlastMem : last ∈ list :: (init ++ [last]) := by simp
  have hlastHead : last ≠ head := hapart hlastMem List.mem_cons_self
  have hnextNext : links.next list ≠ links.next head :=
    hapart hlist.next_mem_of_head.1 hhead.next_mem_of_head.1
  constructor
  · rw [List.append_assoc, List.cons_append, List.nil_append]
    refine (path_append _ head last head init others).mpr ⟨?_, ?_⟩
    -- the nodes of the one ring behind the head of the other
    · have hinit := ((path_append links list last list init []).mp hlist.path).1
      apply hinit.restart hlist.nodes_nodup
      case hfirst => simp [Links.splice, hlast, hlastHead.symm]
      case hback => simp [Links.splice, hnextNext]
      case hnext =>
        intro node hnode
        have hnodeLast : node ≠ last :=
          (List.nodup_append.mp hlist.nodes_nodup).2.2 node hnode last List.mem_cons_self
        have hnodeHead : node ≠ head := hapart (by simp [hnode]) List.mem_cons_self
        simp [Links.splice, hlast, hnodeLast, hnodeHead]
      case hprev =>
        intro node hnode hnodeNext
        have hnodeHead : node ≠ links.next head :=
          hapart (List.mem_cons_of_mem _ hnode) hhead.next_mem_of_head.1
        simp [Links.splice, hnodeNext, hnodeHead]
    -- the nodes of the other ring behind the last of the one
    · apply hhead.path.restart hhead.path_nodup
      case hfirst => simp [Links.splice, hlast]
      case hback => simp [Links.splice, hlast]
      case hnext =>
        intro node hnode
        have hnodeLast : node ≠ last := (hapart hlastMem (List.mem_cons_of_mem _ hnode)).symm
        have hnodeHead : node ≠ head := ne_of_mem_of_not_mem hnode hhead.head_notMem
        simp [Links.splice, hlast, hnodeLast, hnodeHead]
      case hprev =>
        intro node hnode hnodeNext
        have hnodeList : node ≠ links.next list :=
          (hapart hlist.next_mem_of_head.1 (by simpa [or_comm] using hnode)).symm
        simp [Links.splice, hnodeNext, hnodeList]
  · refine List.nodup_cons.mpr ⟨fun hmem ↦ ?_, ?_⟩
    · rcases List.mem_append.mp hmem with hin | hin
      · exact hapart (List.mem_cons_of_mem _ hin) List.mem_cons_self rfl
      · exact hhead.head_notMem hin
    · refine List.nodup_append.mpr ⟨hlist.nodes_nodup, hhead.nodes_nodup, ?_⟩
      intro node hnode other hother
      exact hapart (List.mem_cons_of_mem _ hnode) (List.mem_cons_of_mem _ hother)

/-- Linking into a ring touches that ring and the node linked in, nothing else. -/
theorem IsRing.agreeAt_insertAfter {links : Links N} {head place node other : N} {nodes : List N}
    (hring : IsRing links head nodes) (hplace : place ∈ head :: nodes)
    (hother : other ∉ node :: head :: nodes) :
    links.AgreeAt (links.insertAfter place node) other := by
  obtain ⟨hnode, hin⟩ := not_or.mp (mt List.mem_cons.mpr hother)
  exact Links.agreeAt_insertAfter hnode (fun heq ↦ hin (heq ▸ hplace))
    (fun heq ↦ hin (heq ▸ (hring.next_mem hplace).1))

theorem IsRing.agreeAt_insertBefore {links : Links N} {head place node other : N} {nodes : List N}
    (hring : IsRing links head nodes) (hplace : place ∈ head :: nodes)
    (hother : other ∉ node :: head :: nodes) :
    links.AgreeAt (links.insertBefore place node) other := by
  obtain ⟨hnode, hin⟩ := not_or.mp (mt List.mem_cons.mpr hother)
  exact Links.agreeAt_insertBefore hnode (fun heq ↦ hin (heq ▸ hplace))
    (fun heq ↦ hin (heq ▸ (hring.prev_mem hplace).1))

theorem IsRing.agreeAt_unlink {links : Links N} {head node other : N} {nodes : List N}
    (hring : IsRing links head nodes) (hnode : node ∈ head :: nodes)
    (hother : other ∉ head :: nodes) : links.AgreeAt (links.unlink node) other :=
  Links.agreeAt_unlink (fun heq ↦ hother (heq ▸ hnode))
    (fun heq ↦ hother (heq ▸ (hring.next_mem hnode).1))
    (fun heq ↦ hother (heq ▸ (hring.prev_mem hnode).1))

/-- Following `next` from `pos` on runs through `nodes`, the first of them `pos` itself, and
arrives at `stop`.  Only the `next` links are read. -/
def Trail (links : Links N) : N → List N → N → Prop
  | pos, [], stop => pos = stop
  | pos, node :: nodes, stop => pos = node ∧ Trail links (links.next node) nodes stop

omit [DecidableEq N] in
theorem Path.trail {links : Links N} {start stop : N} {nodes : List N}
    (hpath : Path links start nodes stop) : Trail links (links.next start) nodes stop := by
  induction nodes generalizing start with
  | nil => exact hpath.1
  | cons node nodes ih => exact ⟨hpath.1.1, ih hpath.2⟩

omit [DecidableEq N] in
theorem Trail.congr {links links' : Links N} {pos stop : N} {nodes : List N}
    (htrail : Trail links pos nodes stop)
    (hnext : ∀ node ∈ nodes, links'.next node = links.next node) :
    Trail links' pos nodes stop := by
  induction nodes generalizing pos with
  | nil => exact htrail
  | cons node nodes ih =>
      refine ⟨htrail.1, ?_⟩
      rw [hnext node List.mem_cons_self]
      exact ih htrail.2 fun other hother ↦ hnext other (List.mem_cons_of_mem _ hother)

/-- The nodes met by following `next` from `node` until `stop`, at most `fuel` of them. -/
def walk (links : Links N) (stop : N) : ℕ → N → List N
  | 0, _ => []
  | fuel + 1, node => if node = stop then [] else node :: walk links stop fuel (links.next node)

theorem Trail.walk_eq {links : Links N} {pos stop : N} {nodes : List N} {fuel : ℕ}
    (htrail : Trail links pos nodes stop) (hstop : stop ∉ nodes) (hfuel : nodes.length ≤ fuel) :
    walk links stop fuel pos = nodes := by
  induction nodes generalizing pos fuel with
  | nil =>
      rw [show pos = stop from htrail]
      cases fuel <;> simp [walk]
  | cons node nodes ih =>
      obtain ⟨hne, hnotMem⟩ := not_or.mp (mt List.mem_cons.mpr hstop)
      obtain ⟨fuel, rfl⟩ : ∃ less, fuel = less + 1 :=
        ⟨fuel - 1, by simp only [List.length_cons] at hfuel; omega⟩
      rw [htrail.1, walk, if_neg (Ne.symm hne)]
      rw [ih htrail.2 hnotMem (Nat.le_of_succ_le_succ hfuel)]

/-- The nodes of a ring are the ones met by walking around it. -/
theorem IsRing.walk_eq {links : Links N} {head : N} {nodes : List N} {fuel : ℕ}
    (hring : IsRing links head nodes) (hfuel : nodes.length ≤ fuel) :
    walk links head fuel (links.next head) = nodes :=
  hring.path.trail.walk_eq hring.head_notMem hfuel

/-- The links determine the nodes of a ring. -/
theorem IsRing.unique {links : Links N} {head : N} {nodes nodes' : List N}
    (hring : IsRing links head nodes) (hring' : IsRing links head nodes') : nodes' = nodes :=
  (hring'.walk_eq (Nat.le_max_right nodes.length nodes'.length)).symm.trans
    (hring.walk_eq (Nat.le_max_left _ _))

end ProjectSensor.Library.LinkedRing

import ProjectSensor.Library.LinkedRing

/-!
# Loops around a ring that change the heap

A loop that follows `next` around a ring may change the links of the heap on its way.  As long as
it leaves the `next` links of the nodes of its own ring alone, the body is run once for each of
them, in the order of the ring, and the loop comes to its end (`IsRing.forEach_eq`).
-/

namespace ProjectSensor.Library.LinkedRing

variable {N σ : Type*} [DecidableEq N]

/-- The loop from `pos` on, up to `head`; the link out of `pos` is read after the body.  `none` when
the body fails, or the loop is still running after `fuel` turns. -/
def forEachFrom (links : σ → Links N) (head : N) (body : N → σ → Option σ) :
    ℕ → N → σ → Option σ
  | 0, _, _ => none
  | fuel + 1, pos, state =>
      if pos = head then some state
      else (body pos state).bind fun state ↦
        forEachFrom links head body fuel ((links state).next pos) state

def forEach (links : σ → Links N) (head : N) (body : N → σ → Option σ) (fuel : ℕ) (state : σ) :
    Option σ :=
  forEachFrom links head body fuel ((links state).next head) state

variable {links : σ → Links N} {head pos : N} {body : N → σ → Option σ} {after : N → σ → σ}
  {nodes : List N} {fuel : ℕ} {state : σ}

theorem Trail.forEachFrom_eq (htrail : Trail (links state) pos nodes head) (hhead : head ∉ nodes)
    (hbody : ∀ node ∈ nodes, ∀ state, body node state = some (after node state))
    (hnext : ∀ node ∈ nodes, ∀ other ∈ nodes, ∀ state,
      (links (after node state)).next other = (links state).next other)
    (hfuel : nodes.length < fuel) :
    forEachFrom links head body fuel pos state =
      some (nodes.foldl (fun state node ↦ after node state) state) := by
  induction nodes generalizing pos fuel state with
  | nil =>
      obtain ⟨fuel, rfl⟩ := Nat.exists_eq_succ_of_ne_zero (Nat.ne_zero_of_lt hfuel)
      rw [show pos = head from htrail]
      exact if_pos rfl
  | cons node nodes ih =>
      obtain ⟨fuel, rfl⟩ := Nat.exists_eq_succ_of_ne_zero (Nat.ne_zero_of_lt hfuel)
      obtain ⟨hne, hnotMem⟩ := not_or.mp (mt List.mem_cons.mpr hhead)
      have htail : Trail (links (after node state)) ((links (after node state)).next node)
          nodes head := by
        rw [hnext node List.mem_cons_self node List.mem_cons_self]
        exact htrail.2.congr fun other hother ↦
          hnext node List.mem_cons_self other (List.mem_cons_of_mem node hother) state
      rw [htrail.1, forEachFrom, if_neg (Ne.symm hne), hbody node List.mem_cons_self]
      apply ih htail hnotMem
      · exact fun other hother ↦ hbody other (List.mem_cons_of_mem node hother)
      · exact fun other hother third hthird ↦
          hnext other (List.mem_cons_of_mem node hother) third (List.mem_cons_of_mem node hthird)
      · exact Nat.lt_of_succ_lt_succ hfuel

/-- Around a ring the body is run on each node in turn. -/
theorem IsRing.forEach_eq (links : σ → Links N) (state : σ)
    (hring : IsRing (links state) head nodes)
    (hbody : ∀ node ∈ nodes, ∀ state, body node state = some (after node state))
    (hnext : ∀ node ∈ nodes, ∀ other ∈ nodes, ∀ state,
      (links (after node state)).next other = (links state).next other)
    (hfuel : nodes.length < fuel) :
    forEach links head body fuel state =
      some (nodes.foldl (fun state node ↦ after node state) state) :=
  hring.path.trail.forEachFrom_eq hring.head_notMem hbody hnext hfuel

/-- What every turn keeps holds at the end of the loop, also on links that are no ring. -/
theorem forEachFrom_keeps (property : σ → Prop) {state' : σ}
    (hbody : ∀ node state after, body node state = some after → property state → property after)
    (hloop : forEachFrom links head body fuel pos state = some state') (hinit : property state) :
    property state' := by
  induction fuel generalizing pos state with
  | zero => exact absurd hloop (by simp [forEachFrom])
  | succ fuel ih =>
      rw [forEachFrom] at hloop
      split at hloop
      · rwa [← Option.some.inj hloop]
      · obtain ⟨after, hafter, hloop⟩ := Option.bind_eq_some_iff.mp hloop
        exact ih hloop (hbody pos state after hafter hinit)

omit [DecidableEq N] in
/-- The node behind an inner node, or the head behind the last. -/
theorem IsRing.next_inner {links : Links N} {node : N} {before after : List N}
    (hring : IsRing links head (before ++ node :: after)) :
    links.next node = after.headD head := by
  have hpath : Path links head (before ++ node :: after) head := hring.path
  rw [path_append] at hpath
  have hafter := hpath.2
  cases after with
  | nil => exact hafter.1
  | cons next after => exact hafter.1.1

end ProjectSensor.Library.LinkedRing

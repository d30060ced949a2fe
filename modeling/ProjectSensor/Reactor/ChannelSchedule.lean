import ProjectSensor.Library.Transition
import ProjectSensor.Reactor.ChannelLoop

/-!
# The channel loop follows its schedule

The rings hold the lists of the schedule after every step: a search finds a channel exactly if it
is registered, a pass over the ring is the pass over the list, and the ring of active channels is
walked along links that no handler writes.  So a run of the loop is one of the schedule
(`channelLoop_follows`), and a turn handles each channel that was due once, whatever the handlers
do (`turn_handles_due`).
-/

open ProjectSensor.Library ProjectSensor.Library.LinkedRing ProjectSensor.Library.Transition
open ProjectSensor.Service

namespace ProjectSensor.Reactor

variable {Chan : Type} [DecidableEq Chan]

/-! ### The two rings -/

section Sequences

variable {registered : List Chan} {turn : Option (List Chan)}

omit [DecidableEq Chan] in
theorem onNoList_node {c : Chan} (hc : c ∉ registered) :
    OnNoList (sequences registered turn) (.node c) := by
  intro head nodes hhead
  cases head with
  | channels =>
      obtain rfl := Option.some_inj.mp hhead
      simpa using hc
  | activeChannels =>
      obtain ⟨active, -, rfl⟩ := Option.map_eq_some_iff.mp hhead
      simp
  | node c' => cases hhead
  | activeNode c' => cases hhead

omit [DecidableEq Chan] in
theorem onNoList_activeNode {c : Chan} (hc : ∀ active ∈ turn, c ∉ active) :
    OnNoList (sequences registered turn) (.activeNode c) := by
  intro head nodes hhead
  cases head with
  | channels =>
      obtain rfl := Option.some_inj.mp hhead
      simp
  | activeChannels =>
      obtain ⟨active, hactive, rfl⟩ := Option.map_eq_some_iff.mp hhead
      simpa using hc active hactive
  | node c' => cases hhead
  | activeNode c' => cases hhead

omit [DecidableEq Chan] in
theorem onNoList_activeChannels :
    OnNoList (sequences registered none) .activeChannels := by
  intro head nodes hhead
  cases head with
  | channels =>
      obtain rfl := Option.some_inj.mp hhead
      simp
  | activeChannels => cases hhead
  | node c' => cases hhead
  | activeNode c' => cases hhead

theorem update_channels (registered' : List Chan) :
    Function.update (sequences registered turn) .channels (some (registered'.map .node)) =
      sequences registered' turn := by
  funext node
  cases node <;> rfl

theorem update_activeChannels (turn' : Option (List Chan)) :
    Function.update (sequences registered turn) .activeChannels
      (turn'.map (List.map .activeNode)) = sequences registered turn' := by
  funext node
  cases node <;> rfl

/-- A node on no ring that is made one of its own counts as no head. -/
theorem represents_listInit {links : Links (ChannelNode Chan)} {node : ChannelNode Chan}
    {lists : Sequences (ChannelNode Chan)} (h : Represents links lists)
    (hnode : OnNoList lists node) : Represents (listInit links node) lists := by
  have hinit := ((realizes_apply h (.init hnode)).represents).forget node
  have hnone : lists node = none := by
    cases hlist : lists node with
    | none => rfl
    | some nodes => exact absurd hlist (hnode.ne_some nodes)
  rwa [Function.update_idem, ← hnone, Function.update_eq_self] at hinit

end Sequences

/-! ### What a handler may do -/

section Call

variable {loop : ChannelLoop Chan} {s : Schedule Chan} {c : Chan}

theorem follows_construct (links : Links (ChannelNode Chan)) (channel : Chan → Channel) :
    (ChannelLoop.construct links channel).Follows (Schedule.construct channel) where
  rings := by
    have hnothing : Represents links (fun _ : ChannelNode Chan ↦ none) :=
      ⟨fun _ _ hlist ↦ absurd hlist (by simp), fun _ _ _ _ hlist ↦ absurd hlist (by simp)⟩
    have hinit := (realizes_apply hnothing (.init (l := .channels) (by
      intro head nodes hlist
      exact absurd hlist (by simp)))).represents
    have hlists : Function.update (fun _ : ChannelNode Chan ↦ none) .channels (some []) =
        sequences [] none := by
      funext node
      cases node <;> rfl
    rwa [hlists] at hinit
  channel := rfl
  phase := rfl
  calls := rfl

omit [DecidableEq Chan] in
theorem sound_construct (channel : Chan → Channel) : (Schedule.construct channel).Sound where
  nodup := List.nodup_nil
  registered := by simp [Schedule.construct]
  turn := by simp [Schedule.construct, Schedule.turn]
  revents := by simp [Schedule.construct]

theorem Schedule.sound_call {op : ChannelOp} (hsound : s.Sound)
    (hallowed : s.Allowed (.call c op)) : (s.call c op).Sound := by
  obtain ⟨hconstruct, -⟩ := hallowed
  cases op with
  | construct =>
      have hc : c ∉ s.constructed := hconstruct.mp rfl
      refine ⟨hsound.nodup, fun c' hc' ↦ List.mem_cons_of_mem c (hsound.registered c' hc'),
        fun turn hturn c' hc' ↦ List.mem_cons_of_mem c (hsound.turn turn hturn c' hc'), ?_⟩
      intro done it rest hphase later hlater
      have hturn : s.turn = some ((done ++ it :: rest).map Prod.fst) := by
        rw [Schedule.turn, show s.phase = _ from hphase]
      have hmem : later.1 ∈ (done ++ it :: rest).map Prod.fst :=
        List.mem_map_of_mem (by simp [hlater])
      have hne : later.1 ≠ c := fun heq ↦ hc (heq ▸ hsound.turn _ hturn later.1 hmem)
      show (Function.update s.channel c _ later.1).revents = _
      rw [Function.update_of_ne hne]
      exact hsound.revents done it rest hphase later hlater
  | request interest =>
      have hc : c ∈ s.constructed := by
        by_contra hnot
        exact absurd (hconstruct.mpr hnot) (by simp)
      refine ⟨?_, ?_, hsound.turn, ?_⟩
      · show (if c ∈ s.registered then s.registered else c :: s.registered).Nodup
        by_cases hmem : c ∈ s.registered
        · rw [if_pos hmem]
          exact hsound.nodup
        · rw [if_neg hmem]
          exact List.nodup_cons.mpr ⟨hmem, hsound.nodup⟩
      · intro c' hc'
        change c' ∈ if c ∈ s.registered then s.registered else c :: s.registered at hc'
        split at hc'
        · exact hsound.registered c' hc'
        · rcases List.mem_cons.mp hc' with rfl | hc'
          · exact hc
          · exact hsound.registered c' hc'
      · intro done it rest hphase later hlater
        have hrevents := hsound.revents done it rest hphase later hlater
        show (Function.update s.channel c _ later.1).revents = _
        by_cases hsame : later.1 = c
        · rw [hsame, Function.update_self, ← hrevents, hsame]
        · rw [Function.update_of_ne hsame, hrevents]
  | remove =>
      exact ⟨hsound.nodup.erase c, fun c' hc' ↦ hsound.registered c' (List.mem_of_mem_erase hc'),
        hsound.turn, hsound.revents⟩

theorem follows_constructChannel (hfollows : loop.Follows s) (hsound : s.Sound)
    (hc : c ∉ s.constructed) : (loop.constructChannel c).Follows (s.call c .construct) where
  rings := by
    have hnode := represents_listInit hfollows.rings
      (onNoList_node fun hmem ↦ hc (hsound.registered c hmem))
    exact represents_listInit hnode
      (onNoList_activeNode fun turn hturn hmem ↦ hc (hsound.turn turn hturn c hmem))
  channel := by rw [ChannelLoop.constructChannel, hfollows.channel]; rfl
  phase := hfollows.phase
  calls := hfollows.calls

variable [Fintype Chan]

/-- The search ends, and finds a channel exactly if it is registered. -/
theorem findChannel_eq (hrings : Represents loop.links (sequences s.registered s.turn))
    (hnodup : s.registered.Nodup) (c : Chan) :
    loop.findChannel c = some (if c ∈ s.registered then some (.node c) else none) := by
  have hlength : (s.registered.map ChannelNode.node).length < Fintype.card Chan + 1 := by
    rw [List.length_map]
    exact Nat.lt_succ_of_le hnodup.length_le_card
  rw [ChannelLoop.findChannel, listFind_eq (hrings.ring .channels _ rfl) (.node c) hlength]
  simp

theorem follows_updateChannel (hfollows : loop.Follows s) (hnodup : s.registered.Nodup)
    (c : Chan) :
    ∃ loop', loop.updateChannel c = some loop' ∧ loop'.Follows
      { s with registered := if c ∈ s.registered then s.registered else c :: s.registered } := by
  rw [ChannelLoop.updateChannel, findChannel_eq hfollows.rings hnodup]
  by_cases hmem : c ∈ s.registered
  · simp only [hmem, if_true, Option.map_some]
    exact ⟨loop, rfl, hfollows.rings, hfollows.channel, hfollows.phase, hfollows.calls⟩
  · simp only [hmem, if_false, Option.map_some]
    refine ⟨_, rfl, ?_, hfollows.channel, hfollows.phase, hfollows.calls⟩
    have hlist : sequences s.registered s.turn .channels = some (s.registered.map .node) := rfl
    have hinsert := (realizes_apply hfollows.rings
      (.insertAfterHead hlist (onNoList_node hmem))).represents
    rwa [show (.node c :: s.registered.map .node : List (ChannelNode Chan)) =
      (c :: s.registered).map .node from rfl, update_channels] at hinsert

theorem follows_removeChannel (hfollows : loop.Follows s) (hnodup : s.registered.Nodup)
    (c : Chan) :
    ∃ loop', loop.removeChannel c = some loop' ∧ loop'.Follows (s.call c .remove) := by
  rw [ChannelLoop.removeChannel, findChannel_eq hfollows.rings hnodup]
  by_cases hmem : c ∈ s.registered
  · simp only [hmem, if_true, Option.map_some]
    refine ⟨_, rfl, ?_, hfollows.channel, hfollows.phase, hfollows.calls⟩
    obtain ⟨before, after, -, hsplit, herase⟩ := List.exists_erase_eq hmem
    have hlist : sequences s.registered s.turn .channels =
        some (before.map .node ++ .node c :: after.map .node) := by
      rw [sequences, hsplit, List.map_append, List.map_cons]
    have hdel := (realizes_apply hfollows.rings (.del hlist)).represents
    rw [← List.map_append, update_channels, ← herase] at hdel
    exact hdel
  · simp only [hmem, if_false, Option.map_some]
    have herase : s.call c .remove = s := by
      rw [Schedule.call, List.erase_of_not_mem hmem]
    exact ⟨loop, rfl, by rwa [herase]⟩

/-- Whatever is called, the rings hold the lists that the call makes. -/
theorem follows_call {op : ChannelOp} (hfollows : loop.Follows s) (hsound : s.Sound)
    (hallowed : s.Allowed (.call c op)) :
    ∃ loop', loop.call c op = some loop' ∧ loop'.Follows (s.call c op) := by
  cases op with
  | construct =>
      exact ⟨_, rfl, follows_constructChannel hfollows hsound (hallowed.1.mp rfl)⟩
  | request interest =>
      have hset : ({ loop with
          channel := Function.update loop.channel c
            { loop.channel c with events := interest.apply (loop.channel c).events } } :
            ChannelLoop Chan).Follows { s with
          channel := Function.update s.channel c
            { s.channel c with events := interest.apply (s.channel c).events } } :=
        ⟨hfollows.rings, by rw [hfollows.channel], hfollows.phase, hfollows.calls⟩
      exact follows_updateChannel hset hsound.nodup c
  | remove => exact follows_removeChannel hfollows hsound.nodup c

end Call

/-! ### A pass and the turn it begins -/

section Ready

variable {channel channel' : Chan → Channel} {answer : Chan → BitVec 32} {seen : List Chan}

omit [DecidableEq Chan] in
theorem ready_congr (hsame : ∀ c ∈ seen, channel' c = channel c) :
    ready channel' answer seen = ready channel answer seen :=
  List.filterMap_congr fun c hc ↦ by rw [hsame c hc]

omit [DecidableEq Chan] in
theorem ready_cons (c : Chan) : ready channel answer (c :: seen) =
    (((channel c).occurred (answer c)).map fun revt ↦ (c, revt)).toList ++
      ready channel answer seen := by
  cases hoccurred : (channel c).occurred (answer c) <;> simp [ready, hoccurred]

omit [DecidableEq Chan] in
theorem map_fst_ready_sublist : ((ready channel answer seen).map Prod.fst).Sublist seen := by
  induction seen with
  | nil => exact List.Sublist.slnil
  | cons c seen ih =>
      rw [ready_cons]
      cases (channel c).occurred (answer c) with
      | none => exact ih.cons c
      | some revt => exact ih.cons_cons c

omit [DecidableEq Chan] in
theorem polled_of_ready {later : Chan × BitVec 8} (hlater : later ∈ ready channel answer seen) :
    ((channel later.1).polled (answer later.1)).revents = later.2 := by
  obtain ⟨c, -, hc⟩ := List.mem_filterMap.mp hlater
  obtain ⟨revt, hrevt, rfl⟩ := Option.map_eq_some_iff.mp hc
  rw [Channel.polled, hrevt, Option.getD_some]

end Ready

/-- What a pass does with one channel, on the channels and the list of active ones. -/
def scanChannel (answer : Chan → BitVec 32) (scanned : (Chan → Channel) × List Chan) (it : Chan) :
    (Chan → Channel) × List Chan :=
  (Function.update scanned.1 it ((scanned.1 it).polled (answer it)),
    (((scanned.1 it).occurred (answer it)).map fun _ ↦ it).toList ++ scanned.2)

/-- The pass of the poller over its list of channels. -/
theorem Poller.scan_eq_foldl {Func Param : Type} (poller : Poller Func Param Chan)
    (answer : Chan → BitVec 32) :
    poller.scan answer = poller.channels.foldl (scanChannel answer) (poller.channel, []) := by
  rw [Poller.scan]
  congr 1
  funext scanned it
  rcases scanned with ⟨channel, active⟩
  cases hoccurred : (channel it).occurred (answer it) with
  | none => simp [scanChannel, Channel.polled, hoccurred]
  | some revt => simp [scanChannel, Channel.polled, hoccurred]

/-- The pass over a list in closed form. -/
theorem foldl_scanChannel (answer : Chan → BitVec 32) {channels : List Chan}
    (hnodup : channels.Nodup) (channel : Chan → Channel) (active : List Chan) :
    channels.foldl (scanChannel answer) (channel, active) =
      (fun c ↦ if c ∈ channels then (channel c).polled (answer c) else channel c,
        ((ready channel answer channels).map Prod.fst).reverse ++ active) := by
  induction channels generalizing channel active with
  | nil => rfl
  | cons it channels ih =>
      obtain ⟨hnotMem, hnodup⟩ := List.nodup_cons.mp hnodup
      have hsame : ∀ c ∈ channels,
          Function.update channel it ((channel it).polled (answer it)) c = channel c :=
        fun c hc ↦ Function.update_of_ne (ne_of_mem_of_not_mem hc hnotMem) _ _
      rw [List.foldl_cons, scanChannel, ih hnodup, ready_congr hsame, ready_cons]
      refine Prod.ext ?_ ?_
      · funext c
        by_cases hit : c = it
        · simp [hit, hnotMem]
        · simp [hit]
      · cases (channel it).occurred (answer it) <;> simp

/-- The loop after a pass over some channels, with the list of active ones in its ring. -/
structure ChannelLoop.Scanned (loop : ChannelLoop Chan) (registered : List Chan)
    (scanned : (Chan → Channel) × List Chan) (state : ChannelLoop Chan × Bool) : Prop where
  rings : Represents state.1.links (sequences registered (some scanned.2))
  channel : state.1.channel = scanned.1
  phase : state.1.phase = loop.phase
  calls : state.1.calls = loop.calls
  exit : state.2 = !scanned.2.isEmpty

section Pass

variable {loop : ChannelLoop Chan} {registered : List Chan}
  {scanned : (Chan → Channel) × List Chan} {state : ChannelLoop Chan × Bool}
  {answer : Chan → BitVec 32}

/-- The body of the pass at the node of a channel. -/
def pollNode (answer : Chan → BitVec 32) (node : ChannelNode Chan)
    (state : ChannelLoop Chan × Bool) : ChannelLoop Chan × Bool :=
  (ChannelLoop.pollChannel answer node state).getD state

theorem pollChannel_node (it : Chan) : ChannelLoop.pollChannel answer (.node it) state =
    some (pollNode answer (.node it) state) := by
  rw [pollNode]
  cases hoccurred : (state.1.channel it).occurred (answer it) <;>
    simp [ChannelLoop.pollChannel, hoccurred]

/-- Only active nodes and their head are linked anew. -/
theorem next_pollNode (it other : Chan) :
    (pollNode answer (.node it) state).1.links.next (.node other) =
      state.1.links.next (.node other) := by
  cases hoccurred : (state.1.channel it).occurred (answer it) <;>
    simp [pollNode, ChannelLoop.pollChannel, hoccurred, listInsertAfter]

theorem scanned_pollNode (hscanned : loop.Scanned registered scanned state) {it : Chan}
    (hit : it ∉ scanned.2) :
    loop.Scanned registered (scanChannel answer scanned it)
      (pollNode answer (.node it) state) := by
  have hchannel : state.1.channel it = scanned.1 it := by rw [hscanned.channel]
  cases hoccurred : (scanned.1 it).occurred (answer it) with
  | none =>
      have hpoll : pollNode answer (.node it) state = state := by
        simp [pollNode, ChannelLoop.pollChannel, hchannel, hoccurred]
      have hscan : scanChannel answer scanned it = scanned := by
        simp [scanChannel, Channel.polled, hoccurred]
      rwa [hpoll, hscan]
  | some revt =>
      have hscan : scanChannel answer scanned it = (Function.update scanned.1 it
          { scanned.1 it with revents := revt }, it :: scanned.2) := by
        simp [scanChannel, Channel.polled, hoccurred]
      have hpoll : pollNode answer (.node it) state = ({ state.1 with
          channel := Function.update state.1.channel it
            { state.1.channel it with revents := revt }
          links := listInsertAfter state.1.links .activeChannels (.activeNode it) }, true) := by
        simp [pollNode, ChannelLoop.pollChannel, hchannel, hoccurred]
      rw [hpoll, hscan]
      refine ⟨?_, ?_, hscanned.phase, hscanned.calls, rfl⟩
      · have hlist : sequences registered (some scanned.2) .activeChannels =
            some (scanned.2.map .activeNode) := rfl
        have hnew : OnNoList (sequences registered (some scanned.2)) (.activeNode it) :=
          onNoList_activeNode (by simpa using hit)
        have hinsert := (realizes_apply hscanned.rings (.insertAfterHead hlist hnew)).represents
        rwa [show (some (.activeNode it :: scanned.2.map .activeNode) :
            Option (List (ChannelNode Chan))) =
            (some (it :: scanned.2)).map (List.map .activeNode) from rfl,
          update_activeChannels] at hinsert
      · simp only [hscanned.channel]

theorem scanned_foldl {channels : List Chan} (hscanned : loop.Scanned registered scanned state)
    (hnodup : channels.Nodup) (hnew : ∀ c ∈ channels, c ∉ scanned.2) :
    loop.Scanned registered (channels.foldl (scanChannel answer) scanned)
      (channels.foldl (fun state it ↦ pollNode answer (.node it) state) state) := by
  induction channels generalizing scanned state with
  | nil => exact hscanned
  | cons it channels ih =>
      obtain ⟨hnotMem, hnodup⟩ := List.nodup_cons.mp hnodup
      apply ih (scanned_pollNode hscanned (hnew it List.mem_cons_self)) hnodup
      intro c hc hmem
      rcases List.mem_append.mp hmem with hready | hearlier
      · obtain ⟨_, -, heq⟩ := Option.map_eq_some_iff.mp (Option.mem_toList.mp hready)
        exact hnotMem (heq ▸ hc)
      · exact hnew c (List.mem_cons_of_mem it hc) hearlier

variable [Fintype Chan]

/-- The pass over the ring is the pass over the list of channels, and ends. -/
theorem pollChannels_eq (hrings : Represents loop.links (sequences registered (some [])))
    (hnodup : registered.Nodup) (answer : Chan → BitVec 32) :
    ∃ state, loop.pollChannels answer = some state ∧
      loop.Scanned registered (registered.foldl (scanChannel answer) (loop.channel, [])) state := by
  have hbegin : loop.Scanned registered (loop.channel, []) (loop, false) :=
    ⟨hrings, rfl, rfl, rfl, rfl⟩
  refine ⟨_, ?_, scanned_foldl hbegin hnodup (by simp)⟩
  have hlength : (registered.map ChannelNode.node).length < Fintype.card Chan + 1 := by
    rw [List.length_map]
    exact Nat.lt_succ_of_le hnodup.length_le_card
  have hbody : ∀ node ∈ registered.map ChannelNode.node, ∀ state,
      ChannelLoop.pollChannel answer node state = some (pollNode answer node state) := by
    intro node hnode state
    obtain ⟨it, -, rfl⟩ := List.mem_map.mp hnode
    exact pollChannel_node it
  have hnext : ∀ node ∈ registered.map ChannelNode.node,
      ∀ other ∈ registered.map ChannelNode.node, ∀ state,
        (pollNode answer node state).1.links.next other = state.1.links.next other := by
    intro node hnode other hother state
    obtain ⟨it, -, rfl⟩ := List.mem_map.mp hnode
    obtain ⟨it', -, rfl⟩ := List.mem_map.mp hother
    exact next_pollNode it it'
  have hring := hrings.ring .channels _ rfl
  rw [ChannelLoop.pollChannels,
    IsRing.forEach_eq (fun state ↦ state.1.links) (loop, false) hring hbody hnext hlength,
    List.foldl_map]

/-- The pass that the poller is modelled by, over its channels as a list, is the pass over the
ring. -/
theorem pollChannels_scan {Func Param : Type} (poller : Poller Func Param Chan)
    (hrings : Represents loop.links (sequences poller.channels (some [])))
    (hnodup : poller.channels.Nodup) (hchannel : loop.channel = poller.channel)
    (answer : Chan → BitVec 32) :
    ∃ state, loop.pollChannels answer = some state ∧
      loop.Scanned poller.channels (poller.scan answer) state := by
  rw [poller.scan_eq_foldl, ← hchannel]
  exact pollChannels_eq hrings hnodup answer

end Pass

/-! ### The turn -/

section Turn

variable {loop : ChannelLoop Chan} {s : Schedule Chan} {done rest : List (Chan × BitVec 8)}

/-- With the head of the active channels alone written, the nodes of the turn before are on no
ring. -/
theorem follows_enterPoll {active : Option (List Chan)}
    (hrings : Represents loop.links (sequences s.registered active))
    (hchannel : loop.channel = s.channel) (hcalls : loop.calls = s.calls) :
    loop.enterPoll.Follows { s with phase := .polling } where
  rings := by
    have hforget := hrings.forget .activeChannels
    rw [show (none : Option (List (ChannelNode Chan))) =
      (none : Option (List Chan)).map (List.map .activeNode) from rfl,
      update_activeChannels] at hforget
    have hinit := (realizes_apply hforget (.init onNoList_activeChannels)).represents
    rwa [show (some [] : Option (List (ChannelNode Chan))) =
      (some ([] : List Chan)).map (List.map .activeNode) from rfl, update_activeChannels] at hinit
  channel := hchannel
  phase := rfl
  calls := hcalls

/-- At a node of the turn the handler of its channel is called; behind the last the loop polls. -/
theorem follows_dispatch (s : Schedule Chan) (done rest : List (Chan × BitVec 8))
    (hrings : Represents loop.links (sequences s.registered (some ((done ++ rest).map Prod.fst))))
    (hchannel : loop.channel = s.channel) (hcalls : loop.calls = s.calls)
    (hrevents : ∀ later ∈ rest, (s.channel later.1).revents = later.2) :
    ∃ loop', loop.dispatch ((rest.map fun later ↦ .activeNode later.1).headD .activeChannels) =
        some loop' ∧ loop'.Follows (s.proceed done rest) := by
  cases rest with
  | nil => exact ⟨_, rfl, follows_enterPoll hrings hchannel hcalls⟩
  | cons it rest =>
      refine ⟨_, rfl, hrings, hchannel, rfl, ?_⟩
      show (it.1, (loop.channel it.1).revents) :: loop.calls = it :: s.calls
      rw [hchannel, hrevents it List.mem_cons_self, hcalls]

omit [DecidableEq Chan] in
theorem Schedule.sound_proceed (hsound : s.Sound)
    (hturn : ∀ later ∈ done ++ rest, later.1 ∈ s.constructed)
    (hrevents : ∀ later ∈ rest, (s.channel later.1).revents = later.2) :
    (s.proceed done rest).Sound := by
  cases rest with
  | nil => exact ⟨hsound.nodup, hsound.registered, by simp [turn, proceed], by simp [proceed]⟩
  | cons it rest =>
      refine ⟨hsound.nodup, hsound.registered, ?_, ?_⟩
      · intro turn hin c hc
        obtain rfl := Option.some_inj.mp hin
        obtain ⟨later, hlater, rfl⟩ := List.mem_map.mp hc
        exact hturn later hlater
      · intro done' it' rest' hphase later hlater
        obtain ⟨-, -, rfl⟩ := SchedulePhase.handling.inj hphase
        exact hrevents later (List.mem_cons_of_mem it hlater)

variable [Fintype Chan]

/-- From one handler to the next, along links that no handler has touched. -/
theorem follows_next (hfollows : loop.Follows s) (hsound : s.Sound) (hallowed : s.Allowed .next) :
    ∃ loop', loop.step .next = some loop' ∧ loop'.Follows (s.step .next) := by
  cases hphase : s.phase with
  | outside => exact absurd hphase hallowed.1
  | polling => exact absurd hphase hallowed.2
  | handling done it rest =>
      have hturn : s.turn = some ((done ++ it :: rest).map Prod.fst) := by
        rw [Schedule.turn, hphase]
      have hpos : loop.phase = .handling (.activeNode it.1) := by rw [hfollows.phase, hphase]
      have hstep : s.step .next = s.proceed (done ++ [it]) rest := by
        simp only [Schedule.step, hphase]
      have hsplit : done ++ it :: rest = (done ++ [it]) ++ rest := by simp
      have hrings := hfollows.rings
      rw [hturn] at hrings
      have hring := hrings.ring .activeChannels _ rfl
      rw [List.map_append, List.map_append, List.map_cons, List.map_cons] at hring
      rw [hsplit] at hrings
      obtain ⟨loop', hdispatch, hfollows'⟩ :=
        follows_dispatch s (done ++ [it]) rest hrings hfollows.channel hfollows.calls
          (hsound.revents done it rest hphase)
      refine ⟨loop', ?_, hstep ▸ hfollows'⟩
      simp only [ChannelLoop.step, hpos]
      rw [hring.next_inner, List.map_map]
      exact hdispatch

end Turn

/-! ### A run -/

section Run

variable [Fintype Chan] {loop : ChannelLoop Chan} {s : Schedule Chan}

omit [DecidableEq Chan] [Fintype Chan] in
theorem Schedule.due_eq (answer : Chan → BitVec 32) :
    s.due answer = (ready s.channel answer s.registered).reverse :=
  List.filterMap_reverse

omit [DecidableEq Chan] [Fintype Chan] in
theorem Schedule.mem_registered_of_due {answer : Chan → BitVec 32} {later : Chan × BitVec 8}
    (hlater : later ∈ s.due answer) : later.1 ∈ s.registered := by
  rw [due_eq, List.mem_reverse] at hlater
  exact map_fst_ready_sublist.subset (List.mem_map_of_mem hlater)

omit [Fintype Chan] in
theorem Schedule.revents_polled {answer : Chan → BitVec 32} {later : Chan × BitVec 8}
    (hlater : later ∈ s.due answer) : (s.polled answer later.1).revents = later.2 := by
  rw [polled, if_pos (mem_registered_of_due hlater)]
  rw [due_eq, List.mem_reverse] at hlater
  exact polled_of_ready hlater

omit [Fintype Chan] in
/-- The pass over the registered channels finds the ones that are due, the last of them first. -/
theorem Schedule.scan_registered (hnodup : s.registered.Nodup) (answer : Chan → BitVec 32) :
    s.registered.foldl (scanChannel answer) (s.channel, []) =
      (s.polled answer, (s.due answer).map Prod.fst) := by
  rw [foldl_scanChannel answer hnodup, due_eq, List.map_reverse, List.append_nil]
  rfl

theorem follows_pass {expired : Bool} {answer : Chan → BitVec 32} (hfollows : loop.Follows s)
    (hsound : s.Sound) (hphase : s.phase = .polling) :
    ∃ loop', loop.step (.pass expired answer) = some loop' ∧
      loop'.Follows (s.step (.pass expired answer)) := by
  have hloop : loop.phase = .polling := by rw [hfollows.phase, hphase]
  have hturn : s.turn = some [] := by rw [Schedule.turn, hphase]
  have hrings := hfollows.rings
  rw [hturn] at hrings
  cases expired with
  | true =>
      have hempty : loop.links.next .activeChannels = .activeChannels :=
        (hrings.ring .activeChannels [] rfl).next_head_eq_iff.mpr rfl
      have hsame : s.step (.pass true answer) = { s with phase := .polling } := by
        rw [← hphase]
        rfl
      refine ⟨loop.enterPoll, ?_, hsame ▸ follows_enterPoll hrings hfollows.channel hfollows.calls⟩
      simp [ChannelLoop.step, hloop, hempty, ChannelLoop.dispatch]
  | false =>
      obtain ⟨state, hpoll, hscanned⟩ := pollChannels_eq hrings hsound.nodup answer
      rw [hfollows.channel, Schedule.scan_registered hsound.nodup] at hscanned
      have hstep : loop.step (.pass false answer) =
          if state.2 then state.1.dispatch (state.1.links.next .activeChannels)
          else some state.1 := by
        simp [ChannelLoop.step, hloop, hpoll]
      have hcalls : state.1.calls = s.calls := hscanned.calls.trans hfollows.calls
      rw [hstep, hscanned.exit]
      cases hdue : s.due answer with
      | nil =>
          have hproceed : s.step (.pass false answer) =
              { s with channel := s.polled answer, phase := .polling } := by
            rw [Schedule.step, hdue]
            rfl
          refine ⟨state.1, rfl, ?_⟩
          rw [hproceed]
          refine ⟨?_, hscanned.channel, hscanned.phase.trans hloop, hcalls⟩
          have hactive := hscanned.rings
          rwa [hdue] at hactive
      | cons it rest =>
          have hactive := hscanned.rings
          have hnext := (hactive.ring .activeChannels _ rfl).next_head
          have hproceed : s.step (.pass false answer) =
              { s with channel := s.polled answer }.proceed [] (s.due answer) := rfl
          obtain ⟨loop', hdispatch, hfollows'⟩ :=
            follows_dispatch { s with channel := s.polled answer } [] (s.due answer) hactive
              hscanned.channel hcalls fun later hlater ↦ Schedule.revents_polled hlater
          refine ⟨loop', ?_, hproceed ▸ hfollows'⟩
          rw [hnext, List.map_map, ← hdispatch, hdue]
          rfl

theorem follows_start (hfollows : loop.Follows s) (hphase : s.phase = .outside) :
    ∃ loop', loop.step .start = some loop' ∧ loop'.Follows (s.step .start) := by
  refine ⟨loop.enterPoll, ?_, follows_enterPoll hfollows.rings hfollows.channel hfollows.calls⟩
  simp [ChannelLoop.step, hfollows.phase, hphase]

omit [Fintype Chan] in
theorem Schedule.sound_step {action : ChannelAction Chan} (hsound : s.Sound)
    (hallowed : s.Allowed action) : (s.step action).Sound := by
  cases action with
  | call c op => exact sound_call hsound hallowed
  | start => exact ⟨hsound.nodup, hsound.registered, by simp [turn, step], by simp [step]⟩
  | pass expired answer =>
      cases expired with
      | true => exact hsound
      | false =>
          have hpolled : Schedule.Sound { s with channel := s.polled answer } := by
            refine ⟨hsound.nodup, hsound.registered, hsound.turn, ?_⟩
            intro done it rest hphase
            exact absurd ((show s.phase = .polling from hallowed).symm.trans hphase) (by simp)
          apply sound_proceed hpolled
          · exact fun later hlater ↦ hsound.registered _ (mem_registered_of_due hlater)
          · exact fun later hlater ↦ revents_polled hlater
  | next =>
      cases hphase : s.phase with
      | outside => exact absurd hphase hallowed.1
      | polling => exact absurd hphase hallowed.2
      | handling done it rest =>
          have hturn : s.turn = some ((done ++ it :: rest).map Prod.fst) := by
            rw [turn, hphase]
          have hstep : s.step .next = s.proceed (done ++ [it]) rest := by
            simp only [step, hphase]
          rw [hstep]
          apply sound_proceed hsound _ (hsound.revents done it rest hphase)
          intro later hlater
          have hmem : later ∈ done ++ it :: rest := by simpa using hlater
          exact hsound.turn _ hturn _ (List.mem_map_of_mem hmem)

/-- A possible step of the loop is the step of its schedule. -/
theorem follows_step {action : ChannelAction Chan} (hfollows : loop.Follows s) (hsound : s.Sound)
    (hallowed : s.Allowed action) :
    ∃ loop', loop.step action = some loop' ∧ loop'.Follows (s.step action) := by
  cases action with
  | call c op =>
      have hnot : loop.phase ≠ .polling := by
        rw [hfollows.phase]
        cases hphase : s.phase with
        | outside => simp
        | polling => exact absurd hphase hallowed.2
        | handling done it rest => simp
      have hstep : loop.step (.call c op) = loop.call c op := by
        rw [ChannelLoop.step]
        split
        · exact absurd ‹_› hnot
        · rfl
      rw [hstep]
      exact follows_call hfollows hsound hallowed
  | start => exact follows_start hfollows hallowed
  | pass expired answer => exact follows_pass hfollows hsound hallowed
  | next => exact follows_next hfollows hsound hallowed

theorem follows_run {actions : List (ChannelAction Chan)} (hfollows : loop.Follows s)
    (hsound : s.Sound) (hallowed : AllSteps Schedule.step Schedule.Allowed s actions) :
    ∃ loop', loop.runActions actions = some loop' ∧
      loop'.Follows (run Schedule.step s actions) ∧ (run Schedule.step s actions).Sound := by
  induction actions generalizing loop s with
  | nil => exact ⟨loop, rfl, hfollows, hsound⟩
  | cons action actions ih =>
      obtain ⟨loop', hstep, hfollows'⟩ := follows_step hfollows hsound hallowed.1
      obtain ⟨loop'', hrun, hfollows''⟩ :=
        ih hfollows' (Schedule.sound_step hsound hallowed.1) hallowed.2
      refine ⟨loop'', ?_, hfollows''⟩
      rw [ChannelLoop.runActions, List.foldlM_cons, hstep]
      exact hrun

end Run

/-! ### What a run of the loop does -/

section Main

variable [Fintype Chan]

/-- Every possible run of the loop, with whatever its handlers do, is one of the schedule: no search
and no pass gets lost on the rings, `m_channels` holds the channels that are registered, each once,
and the handlers are called as the schedule has it. -/
theorem channelLoop_follows (links : Links (ChannelNode Chan)) (channel : Chan → Channel)
    (actions : List (ChannelAction Chan))
    (hallowed : AllSteps Schedule.step Schedule.Allowed (Schedule.construct channel) actions) :
    ∃ loop, (ChannelLoop.construct links channel).runActions actions = some loop ∧
      loop.Follows (run Schedule.step (Schedule.construct channel) actions) := by
  obtain ⟨loop, hrun, hfollows, -⟩ :=
    follows_run (follows_construct links channel) (sound_construct channel) hallowed
  exact ⟨loop, hrun, hfollows⟩

/-- How much of a turn is over. -/
def Schedule.Handles (s : Schedule Chan) (due before : List (Chan × BitVec 8)) : Prop :=
  match s.phase with
  | .outside => False
  | .polling => s.calls = due.reverse ++ before
  | .handling done it rest =>
      done ++ it :: rest = due ∧ s.calls = (done ++ [it]).reverse ++ before

omit [DecidableEq Chan] [Fintype Chan] in
theorem Schedule.handles_proceed {s : Schedule Chan} (done : List (Chan × BitVec 8))
    {rest before : List (Chan × BitVec 8)} (hcalls : s.calls = done.reverse ++ before) :
    (s.proceed done rest).Handles (done ++ rest) before := by
  cases rest with
  | nil => simpa [Handles, proceed] using hcalls
  | cons it rest => simp [Handles, proceed, hcalls]

omit [Fintype Chan] in
/-- The turn is not changed by what a handler does, and the next handler is that of the next
channel. -/
theorem Schedule.handles_run {s : Schedule Chan} {due before : List (Chan × BitVec 8)}
    {actions : List (ChannelAction Chan)} (hhandles : s.Handles due before)
    (hinside : ∀ action ∈ actions, (∃ c op, action = .call c op) ∨ action = .next)
    (hallowed : AllSteps Schedule.step Schedule.Allowed s actions) :
    (run Schedule.step s actions).Handles due before := by
  induction actions generalizing s with
  | nil => exact hhandles
  | cons action actions ih =>
      refine ih ?_ (fun action haction ↦ hinside action (List.mem_cons_of_mem _ haction)) hallowed.2
      rcases hinside action List.mem_cons_self with ⟨c, op, rfl⟩ | rfl
      · cases op <;> exact hhandles
      · cases hphase : s.phase with
        | outside => exact absurd hphase hallowed.1.1
        | polling => exact absurd hphase hallowed.1.2
        | handling done it rest =>
            simp only [Handles, hphase] at hhandles
            have hnext : s.step .next = s.proceed (done ++ [it]) rest := by
              simp only [step, hphase]
            rw [hnext, ← hhandles.1, show done ++ it :: rest = (done ++ [it]) ++ rest by simp]
            exact handles_proceed (done ++ [it]) hhandles.2

omit [DecidableEq Chan] [Fintype Chan] in
/-- The loop has called the handlers that its schedule has. -/
theorem Schedule.Handles.handled {loop : ChannelLoop Chan} {s : Schedule Chan}
    {due before : List (Chan × BitVec 8)} (hhandles : s.Handles due before)
    (hfollows : loop.Follows s) : ∃ handled, handled <+: due ∧
      loop.calls = handled.reverse ++ before ∧ (loop.phase = .polling → handled = due) := by
  cases hphase : s.phase with
  | outside => simp [Handles, hphase] at hhandles
  | polling =>
      simp only [Handles, hphase] at hhandles
      exact ⟨due, List.prefix_rfl, hfollows.calls.trans hhandles, fun _ ↦ rfl⟩
  | handling done it rest =>
      simp only [Handles, hphase] at hhandles
      refine ⟨done ++ [it], ⟨rest, ?_⟩, hfollows.calls.trans hhandles.2, fun hpolling ↦ ?_⟩
      · rw [← hhandles.1, List.append_assoc]
        rfl
      · rw [hfollows.phase, hphase] at hpolling
        exact absurd hpolling (by simp)

/-- The handlers called since `before` are those of the first channels of `due`, each channel once;
when the loop polls again they are those of all of them. -/
structure ChannelLoop.HandlesDue (loop before : ChannelLoop Chan) (due : List (Chan × BitVec 8)) :
    Prop where
  nodup : (due.map Prod.fst).Nodup
  handled : ∃ handled, handled <+: due ∧ loop.calls = handled.reverse ++ before.calls ∧
    (loop.phase = .polling → handled = due)

/-- The handlers of a turn are those of the channels that were due when it began, each once, in the
order the channels were registered in, each with the event polled; when the loop polls again all
of them have been called.  That a handler registers, removes or constructs channels, or changes
the events they ask for, makes no difference to the turn. -/
theorem turn_handles_due (links : Links (ChannelNode Chan)) (channel : Chan → Channel)
    (before between : List (ChannelAction Chan)) (answer : Chan → BitVec 32)
    (hallowed : AllSteps Schedule.step Schedule.Allowed (Schedule.construct channel)
      (before ++ .pass false answer :: between))
    (hinside : ∀ action ∈ between, (∃ c op, action = .call c op) ∨ action = .next) :
    ∃ loop loop', (ChannelLoop.construct links channel).runActions before = some loop ∧
      loop.runActions (.pass false answer :: between) = some loop' ∧
      loop'.HandlesDue loop ((run Schedule.step (.construct channel) before).due answer) := by
  obtain ⟨loop, hbefore, hfollows, hsound⟩ :=
    follows_run (follows_construct links channel) (sound_construct channel) hallowed.append_left
  have hafter := hallowed.append_right
  obtain ⟨loop', hturn, hfollows', -⟩ := follows_run hfollows hsound hafter
  refine ⟨loop, loop', hbefore, hturn, ⟨?_, ?_⟩⟩
  · rw [Schedule.due_eq, List.map_reverse, List.nodup_reverse]
    exact hsound.nodup.sublist map_fst_ready_sublist
  · have hbegin : Schedule.Handles ((run Schedule.step (.construct channel) before).step
        (.pass false answer)) _ loop.calls :=
      Schedule.handles_proceed [] hfollows.calls.symm
    exact (Schedule.handles_run hbegin hinside hafter.2).handled hfollows'

/-- Two channels are registered; the handler of the first removes the second, which is handled all
the same. -/
def removingRun : List (ChannelAction (Fin 2)) × List (ChannelAction (Fin 2)) :=
  ([.call 0 .construct, .call 1 .construct, .call 0 (.request .enableReading),
      .call 1 (.request .enableReading), .start],
    [.call 1 .remove, .next, .next])

/-- Before the constructors ran. -/
def blankLinks : Links (ChannelNode (Fin 2)) := ⟨id, id⟩

def blankChannel : Fin 2 → Channel := fun _ ↦ ⟨pollNone, pollNone⟩

theorem channelLoop_follows_removing :
    ∃ loop, (ChannelLoop.construct blankLinks blankChannel).runActions
        (removingRun.1 ++ .pass false (fun _ ↦ devicePollIn) :: removingRun.2) = some loop ∧
      loop.Follows (run Schedule.step (Schedule.construct blankChannel)
        (removingRun.1 ++ .pass false (fun _ ↦ devicePollIn) :: removingRun.2)) :=
  channelLoop_follows blankLinks blankChannel _ (by decide)

theorem turn_handles_due_removing :
    (run Schedule.step (Schedule.construct blankChannel) removingRun.1).due
        (fun _ ↦ devicePollIn) = [(0, pollIn), (1, pollIn)] ∧
      ∃ loop loop', (ChannelLoop.construct blankLinks blankChannel).runActions removingRun.1 =
          some loop ∧
        loop.runActions (.pass false (fun _ ↦ devicePollIn) :: removingRun.2) = some loop' ∧
        loop'.HandlesDue loop ((run Schedule.step (Schedule.construct blankChannel)
          removingRun.1).due fun _ ↦ devicePollIn) :=
  ⟨by decide, turn_handles_due blankLinks blankChannel removingRun.1 removingRun.2
    (fun _ ↦ devicePollIn) (by decide) (by simp [removingRun])⟩

end Main

end ProjectSensor.Reactor

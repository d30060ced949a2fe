import Mathlib.Data.Fintype.Card
import ProjectSensor.Library.RingLoop
import ProjectSensor.Reactor.HandleEvent
import ProjectSensor.Service.ListSequences

/-!
# The channels of the event loop

`eventloop::loop` polls, and then calls the handlers of the channels that were found ready.  The
poller keeps its channels on the ring `m_channels`, and `poll` links the ready ones into the ring
`m_active_channels`, through a second node inside the channel.  That ring is emptied by writing its
head alone, so that the active nodes keep their links from one turn to the next.  A handler may do
anything with any channel, its own included: it may construct it, change the events it asks for or
remove it.

`Schedule` says what this amounts to, in terms of lists of channels: a turn handles the channels
that were ready, in the order they were registered in, and nothing the handlers do changes that.
-/

open ProjectSensor.Library ProjectSensor.Library.LinkedRing
open ProjectSensor.Service

namespace ProjectSensor.Reactor

/-- The nodes that channels are linked through: the head `m_channels` of the poller, the head
`m_active_channels` of the loop, and the two nodes inside each channel. -/
inductive ChannelNode (Chan : Type) where
  | channels
  | activeChannels
  | node (c : Chan)
  | activeNode (c : Chan)
  deriving DecidableEq

/-- The methods that set `events_` and end in `update`. -/
inductive Interest where
  | enableReading
  | disableReading
  | enableWriting
  | disableWriting
  | disableAll
  deriving DecidableEq

def Interest.apply (events : BitVec 8) : Interest → BitVec 8
  | .enableReading => events ||| pollIn
  | .disableReading => events &&& ~~~pollIn
  | .enableWriting => events ||| pollOut
  | .disableWriting => events &&& ~~~pollOut
  | .disableAll => pollNone

inductive ChannelOp where
  | construct
  | request (interest : Interest)
  | remove
  deriving DecidableEq

/-- Before `loop`, inside `poll`, and inside the handler of the channel at `pos`. -/
inductive LoopPhase (Chan : Type) where
  | outside
  | polling
  | handling (pos : ChannelNode Chan)

/-- A call of a channel's method by whoever runs, the call of `loop`, a turn of the loop in `poll`
with what its timer and the devices answer, and the return of a handler. -/
inductive ChannelAction (Chan : Type) where
  | call (c : Chan) (op : ChannelOp)
  | start
  | pass (expired : Bool) (answer : Chan → BitVec 32)
  | next

/-- The poller and the loop as far as the channels go; `calls` are the calls of `handleEvent`, each
with the `revents_` it finds, the latest first. -/
structure ChannelLoop (Chan : Type) where
  links : Links (ChannelNode Chan)
  channel : Chan → Channel
  phase : LoopPhase Chan
  calls : List (Chan × BitVec 8)

namespace ChannelLoop

variable {Chan : Type} [DecidableEq Chan]

/-- As the constructors of the poller and the loop leave it: the channels, their nodes and the head
`m_active_channels` are what the memory held before. -/
def construct (links : Links (ChannelNode Chan)) (channel : Chan → Channel) : ChannelLoop Chan where
  links := listInit links .channels
  channel := channel
  phase := .outside
  calls := []

variable (loop : ChannelLoop Chan)

/-- `channel::channel`. -/
def constructChannel (c : Chan) : ChannelLoop Chan :=
  { loop with
    links := listInit (listInit loop.links (.node c)) (.activeNode c)
    channel := Function.update loop.channel c ⟨pollNone, pollNone⟩ }

section Fintype

variable [Fintype Chan]

/-- `list_find` on `m_channels`; a well-formed ring is searched in so many turns. -/
def findChannel (c : Chan) : Option (Option (ChannelNode Chan)) :=
  listFind loop.links (Fintype.card Chan + 1) .channels (.node c)

/-- `poller::updateChannel`; `none` when the search does not end. -/
def updateChannel (c : Chan) : Option (ChannelLoop Chan) :=
  (loop.findChannel c).map fun
    | none => { loop with links := listInsertAfter loop.links .channels (.node c) }
    | some _ => loop

/-- `poller::removeChannel`. -/
def removeChannel (c : Chan) : Option (ChannelLoop Chan) :=
  (loop.findChannel c).map fun
    | none => loop
    | some _ => { loop with links := listDel loop.links (.node c) }

/-- The methods of a channel. -/
def call (c : Chan) : ChannelOp → Option (ChannelLoop Chan)
  | .construct => some (loop.constructChannel c)
  | .request interest =>
      { loop with
        channel := Function.update loop.channel c
          { loop.channel c with events := interest.apply (loop.channel c).events } }.updateChannel c
  | .remove => loop.removeChannel c

/-- The body of the pass over `m_channels`, and whether the loop in `poll` is to be left. -/
def pollChannel (answer : Chan → BitVec 32) (pos : ChannelNode Chan)
    (state : ChannelLoop Chan × Bool) : Option (ChannelLoop Chan × Bool) :=
  match pos with
  | .node it =>
      match (state.1.channel it).occurred (answer it) with
      | none => some state
      | some revt =>
          some ({ state.1 with
            channel := Function.update state.1.channel it
              { state.1.channel it with revents := revt }
            links := listInsertAfter state.1.links .activeChannels (.activeNode it) }, true)
  | _ => none

/-- The pass over `m_channels`. -/
def pollChannels (answer : Chan → BitVec 32) : Option (ChannelLoop Chan × Bool) :=
  forEach (fun state ↦ state.1.links) .channels (pollChannel answer) (Fintype.card Chan + 1)
    (loop, false)

/-- The top of `while`, up to the first test in `poll`. -/
def enterPoll : ChannelLoop Chan :=
  { loop with links := listInit loop.links .activeChannels, phase := .polling }

/-- The test of the loop over `m_active_channels`, and its body up to the handler. -/
def dispatch (pos : ChannelNode Chan) : Option (ChannelLoop Chan) :=
  match pos with
  | .activeChannels => some loop.enterPoll
  | .activeNode it =>
      some { loop with
        phase := .handling pos
        calls := (it, (loop.channel it).revents) :: loop.calls }
  | _ => none

/-- `none` also for an action that is not possible where the loop stands. -/
def step : ChannelAction Chan → Option (ChannelLoop Chan)
  | .call c op =>
      match loop.phase with
      | .polling => none
      | _ => loop.call c op
  | .start =>
      match loop.phase with
      | .outside => some loop.enterPoll
      | _ => none
  | .pass expired answer =>
      match loop.phase with
      | .polling =>
          if expired then loop.dispatch (loop.links.next .activeChannels)
          else (loop.pollChannels answer).bind fun state ↦
            if state.2 then state.1.dispatch (state.1.links.next .activeChannels)
            else some state.1
      | _ => none
  | .next =>
      match loop.phase with
      | .handling pos => loop.dispatch (loop.links.next pos)
      | _ => none

/-- A run; `none` when one of its steps is. -/
def runActions (actions : List (ChannelAction Chan)) : Option (ChannelLoop Chan) :=
  actions.foldlM (fun loop action ↦ loop.step action) loop

end Fintype

end ChannelLoop

/-- The channel after a poll of its device. -/
def Channel.polled (channel : Channel) (rt : BitVec 32) : Channel :=
  { channel with revents := (channel.occurred rt).getD channel.revents }

/-- The channels that are ready, each with its event, in the order they are seen in. -/
def ready {Chan : Type} (channel : Chan → Channel) (answer : Chan → BitVec 32) (seen : List Chan) :
    List (Chan × BitVec 8) :=
  seen.filterMap fun c ↦ ((channel c).occurred (answer c)).map fun revt ↦ (c, revt)

/-- Where a schedule stands; a turn is taken apart into the channels that were handled, the one
that is being handled, and the ones still to be handled, each with its event. -/
inductive SchedulePhase (Chan : Type) where
  | outside
  | polling
  | handling (done : List (Chan × BitVec 8)) (it : Chan × BitVec 8) (rest : List (Chan × BitVec 8))
  deriving DecidableEq

/-- The channels as lists: `registered` has the latest first, as has `calls`. -/
structure Schedule (Chan : Type) where
  constructed : List Chan
  registered : List Chan
  channel : Chan → Channel
  phase : SchedulePhase Chan
  calls : List (Chan × BitVec 8)

namespace Schedule

variable {Chan : Type} [DecidableEq Chan]

def construct (channel : Chan → Channel) : Schedule Chan where
  constructed := []
  registered := []
  channel := channel
  phase := .outside
  calls := []

variable (s : Schedule Chan)

/-- The channels that are ready, in the order they were registered in. -/
def due (answer : Chan → BitVec 32) : List (Chan × BitVec 8) :=
  ready s.channel answer s.registered.reverse

/-- The channels with the events of the pass. -/
def polled (answer : Chan → BitVec 32) (c : Chan) : Channel :=
  if c ∈ s.registered then (s.channel c).polled (answer c) else s.channel c

/-- The turn goes on with the channels that are left. -/
def proceed (done : List (Chan × BitVec 8)) : List (Chan × BitVec 8) → Schedule Chan
  | [] => { s with phase := .polling }
  | it :: rest => { s with phase := .handling done it rest, calls := it :: s.calls }

def call (c : Chan) : ChannelOp → Schedule Chan
  | .construct =>
      { s with
        constructed := c :: s.constructed
        channel := Function.update s.channel c ⟨pollNone, pollNone⟩ }
  | .request interest =>
      { s with
        registered := if c ∈ s.registered then s.registered else c :: s.registered
        channel := Function.update s.channel c
          { s.channel c with events := interest.apply (s.channel c).events } }
  | .remove => { s with registered := s.registered.erase c }

def step : ChannelAction Chan → Schedule Chan
  | .call c op => s.call c op
  | .start => { s with phase := .polling }
  | .pass expired answer =>
      if expired then s else { s with channel := s.polled answer }.proceed [] (s.due answer)
  | .next =>
      match s.phase with
      | .handling done it rest => s.proceed (done ++ [it]) rest
      | _ => s

/-- A channel is constructed once, and before anything else is done with it; `poll` calls no method
of a channel; `loop` is called once. -/
def Allowed : ChannelAction Chan → Prop
  | .call c op => (op = .construct ↔ c ∉ s.constructed) ∧ s.phase ≠ .polling
  | .start => s.phase = .outside
  | .pass _ _ => s.phase = .polling
  | .next => s.phase ≠ .outside ∧ s.phase ≠ .polling

instance decidableAllowed : ∀ (s : Schedule Chan) action, Decidable (s.Allowed action)
  | _, .call .. => inferInstanceAs (Decidable (_ ∧ _))
  | _, .start => inferInstanceAs (Decidable (_ = _))
  | _, .pass .. => inferInstanceAs (Decidable (_ = _))
  | _, .next => inferInstanceAs (Decidable (_ ∧ _))

/-- The channels of the turn under way, as they are linked into `m_active_channels`; before the
first turn that is no list yet. -/
def turn : Option (List Chan) :=
  match s.phase with
  | .outside => none
  | .polling => some []
  | .handling done it rest => some ((done ++ it :: rest).map Prod.fst)

end Schedule

/-- The two rings by the channels on them. -/
def sequences {Chan : Type} (registered : List Chan) (turn : Option (List Chan)) :
    Sequences (ChannelNode Chan)
  | .channels => some (registered.map .node)
  | .activeChannels => turn.map (List.map .activeNode)
  | .node _ => none
  | .activeNode _ => none

variable {Chan : Type} [DecidableEq Chan]

/-- A channel on a list was constructed, no list has a channel twice, and the channels still to be
handled have the events they were polled with. -/
structure Schedule.Sound (s : Schedule Chan) : Prop where
  nodup : s.registered.Nodup
  registered : ∀ c ∈ s.registered, c ∈ s.constructed
  turn : ∀ turn ∈ s.turn, ∀ c ∈ turn, c ∈ s.constructed
  revents : ∀ done it rest, s.phase = .handling done it rest →
    ∀ later ∈ rest, (s.channel later.1).revents = later.2

/-- The loop stands where its schedule does, and its rings hold the lists of the schedule. -/
structure ChannelLoop.Follows (loop : ChannelLoop Chan) (s : Schedule Chan) : Prop where
  rings : Represents loop.links (sequences s.registered s.turn)
  channel : loop.channel = s.channel
  phase : loop.phase = match s.phase with
    | .outside => .outside
    | .polling => .polling
    | .handling _ it _ => .handling (.activeNode it.1)
  calls : loop.calls = s.calls

end ProjectSensor.Reactor

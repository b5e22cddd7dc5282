import ShellInterface.Proofs.Tcp.Delivery
import ShellInterface.Proofs.Tcp.Receipts

namespace ShellInterface.Tcp

open Tcp.Frame (Turn)

def Receipt.received (r : Receipt) : List Chunk :=
  r.chunks.map Prod.snd

theorem Receipt.tally_eq (r : Receipt) : r.tally = (r.received.map Chunk.length).sum := by
  simp [tally, received, Function.comp_def]

structure Gained (rs rs' : List Receipt) (commands : List ForwardCommand)
    (sessions : List SessionId) (chunks : List Chunk) : Prop where
  commands : rs'.map Receipt.command = rs.map Receipt.command ++ commands
  sessions : rs'.filterMap Receipt.session = rs.filterMap Receipt.session ++ sessions
  chunks   : rs'.flatMap Receipt.received = rs.flatMap Receipt.received ++ chunks

theorem Gained.header (done : List Receipt) (e enable : Bool) (cmd : ForwardCommand)
    (session : SessionId) : Gained (done ++ [.start e cmd])
      (enter (done ++ [.start e cmd]) enable [] [session] []) [] [session] [] := by
  constructor <;> simp [Receipt.received, Receipt.start]

namespace Receiver

variable {v v' : Receiver} {l l' : Links} {enable : Bool} {ns : List Note} {rs : List Receipt}

theorem Booked.gained_chunk {chunk : Chunk} (h : Booked v rs) (hp : v.phase ≠ .idle) :
    Gained rs (enter rs enable [] [] [chunk]) [] [] [chunk] := by
  obtain ⟨done, r, rfl, _⟩ := h.exists_hand hp
  constructor <;> simp [Receipt.received, List.filterMap_cons]

theorem Booked.gained (h : Booked v rs) (step : Step enable v l ns v' l') :
    Gained rs (enter rs enable (l.commands.taken l'.commands) (l.sessions.taken l'.sessions)
      (l.data.taken l'.data)) (l.commands.taken l'.commands) (l.sessions.taken l'.sessions)
      (l.data.taken l'.data) := by
  cases step
  case stall => constructor <;> simp [enter_nothing]
  case start read _ =>
    constructor <;> simp [Fifo.taken_tail read, Receipt.start, Receipt.received]
  case forwardHeader hp _ read _ _ =>
    obtain ⟨done, e, cmd, rfl, _⟩ := h.exists_headless (.inl hp)
    simpa [Fifo.taken_tail read] using Gained.header done e enable cmd _
  case sinkHeader hp _ read =>
    obtain ⟨done, e, cmd, rfl, _⟩ := h.exists_headless (.inr hp)
    simpa [Fifo.taken_tail read] using Gained.header done e enable cmd _
  case mismatch hp _ read _ =>
    obtain ⟨done, e, cmd, rfl, _⟩ := h.exists_headless hp
    simpa [Fifo.taken_tail read] using Gained.header done e enable cmd _
  case forwardData hp read _ _ _ =>
    simpa [Fifo.taken_tail read] using h.gained_chunk (by simp [hp])
  case sinkData hp read _ _ =>
    simpa [Fifo.taken_tail read] using h.gained_chunk (by simp [hp])
  case extractRecord hp read _ _ _ _ =>
    simpa [Fifo.taken_tail read] using h.gained_chunk (by simp [hp])
  case malformedRecord hp read _ _ _ =>
    simpa [Fifo.taken_tail read] using h.gained_chunk (by simp [hp])

theorem Step.taken_append (h : Step enable v l ns v' l') :
    l.commands.items = l.commands.taken l'.commands ++ l'.commands.items ∧
    l.sessions.items = l.sessions.taken l'.sessions ++ l'.sessions.items ∧
    l.data.items = l.data.taken l'.data ++ l'.data.items := by
  cases h
  case stall                           => simp
  case start read _                    => simp [read, Fifo.taken_tail read]
  case forwardHeader read _ _          => simp [read, Fifo.taken_tail read]
  case sinkHeader read                 => simp [read, Fifo.taken_tail read]
  case mismatch read _                 => simp [read, Fifo.taken_tail read]
  case forwardData read _ _ _          => simp [read, Fifo.taken_tail read]
  case sinkData read _ _               => simp [read, Fifo.taken_tail read]
  case extractRecord read _ _ _ _      => simp [read, Fifo.taken_tail read]
  case malformedRecord read _ _ _      => simp [read, Fifo.taken_tail read]

end Receiver

namespace Frame

structure Conserved (ts : List (Bool × Turn)) (n : Network) : Prop where
  commands : (receipts ts).map Receipt.command ++ n.inner.commands.items =
    commands (ts.map Prod.snd)
  sessions : (receipts ts).filterMap Receipt.session ++ n.inner.sessions.items =
    sessions (ts.map Prod.snd)
  chunks   : (receipts ts).flatMap Receipt.received ++ n.inner.buffer.items =
    chunks (ts.map Prod.snd)

namespace Conserved

variable {enable : Bool} {ts : List (Bool × Turn)} {f f' : Frame} {ns : List Note} {n : Network}

theorem write (h : Conserved ts f.net)
    (hc : f'.net.inner.commands.items = f.net.inner.commands.items ++
      f.net.inner.commands.added f'.net.inner.commands)
    (hs : f'.net.inner.sessions.items = f.net.inner.sessions.items ++
      f.i.sessions.taken f'.i.sessions)
    (hb : f'.net.inner.buffer.items = f.net.inner.buffer.items ++ f.i.data.taken f'.i.data) :
    Conserved (ts ++ [(enable, ⟨f, ns, f'⟩)]) f'.net := by
  have entered : receipts (ts ++ [(enable, ⟨f, ns, f'⟩)]) = receipts ts := by
    rw [receipts_concat, Fifo.taken_of_append hc, Fifo.taken_of_append hs, Fifo.taken_of_append hb,
      enter_nothing]
  constructor
  case commands =>
    rw [entered, hc, ← List.append_assoc, h.commands]
    simp
  case sessions =>
    rw [entered, hs, ← List.append_assoc, h.sessions]
    simp
  case chunks   =>
    rw [entered, hb, ← List.append_assoc, h.chunks]
    simp

theorem receive {receiver : Receiver} {l : Receiver.Links} (h : Conserved ts f.net)
    (booked : f.net.receiver.Booked (receipts ts))
    (step : Receiver.Step enable f.net.receiver f.receiverLinks ns receiver l) :
    Conserved (ts ++ [(enable, ⟨f, ns, f.afterReceiver receiver l⟩)])
      (f.afterReceiver receiver l).net := by
  have ⟨commands, sessions, chunks⟩ := booked.gained step
  have ⟨hc, hs, hb⟩ := step.taken_append
  have ha : f.net.inner.commands.added l.commands = [] := step.commands_added
  simp only [receiverLinks] at *
  constructor
  case commands => simpa [afterReceiver, commands, ha, hc] using h.commands
  case sessions => simpa [afterReceiver, sessions, hs] using h.sessions
  case chunks   => simpa [afterReceiver, chunks, hb] using h.chunks

theorem turn (h : Conserved ts f.net) (booked : f.net.receiver.Booked (receipts ts))
    (step : Step enable f ns f') : Conserved (ts ++ [(enable, ⟨f, ns, f'⟩)]) f'.net := by
  cases step
  case interrupt ticked =>
    obtain ⟨_, _, _, step⟩ := Interrupts.step_of_tick ticked
    exact h.write step.scheduler.commands_written (by simp [afterInterrupts])
      (by simp [afterInterrupts])
  case buffer ticked    =>
    obtain ⟨_, hs, _, hb, _⟩ := InputBuffer.moved_of_tick ticked
    exact h.write (by simp [afterBuffer]) hs hb
  case receive ticked   => exact h.receive booked (Receiver.step_of_tick ticked)
  all_goals exact h.write (by simp [afterTracker]) (by simp [afterTracker]) (by simp [afterTracker])

theorem start {c : Config} (h : Network.create c = .ok n) : Conserved [] n := by
  have ⟨_, _, hi, _⟩ := Network.create_ok h
  have ⟨_, hc, hs, hb, _⟩ := Inner.create_ok hi
  exact ⟨hc, hs, hb⟩

end Conserved

end Frame

theorem Ended.append_inj {as bs us ws : List Chunk} (ha : Ended as) (hb : Ended bs)
    (h : as ++ us = bs ++ ws) : as = bs ∧ us = ws := by
  induction ha generalizing bs
  case last hl =>
    cases hb
    case last => simpa using h
    case more hf _ =>
      rw [List.cons_append, List.cons_append, List.cons.injEq] at h
      simp [← h.left, hl] at hf
  case more hf _ ih =>
    cases hb <;> rw [List.cons_append, List.cons_append, List.cons.injEq] at h
    case last hl => simp [h.left, hl] at hf
    case more rest =>
      have ⟨has, hus⟩ := ih rest h.right
      exact ⟨by rw [h.left, has], hus⟩

namespace Receipt

-- What was taken is taken of this stream.
structure Of (r : Receipt) (s : Stream) : Prop where
  command  : r.command = s.1
  session  : ∀ session ∈ r.session, session = s.1.session
  headless : r.session = none → r.chunks = []
  received : r.received <+: s.2

-- A stream ends where its last chunk says so, so what was taken of streams that came one after the
-- other is known from what was taken in all.
theorem of_finished {rs : List Receipt} {done : List Stream} {us ws : List SessionId}
    {xs ys : List Chunk} (finished : ∀ r ∈ rs, r.Finished) (ended : ∀ s ∈ done, Ended s.2)
    (commands : rs.map command = done.map Prod.fst)
    (sessions : rs.filterMap Receipt.session ++ us = done.map (·.1.session) ++ ws)
    (chunks : rs.flatMap Receipt.received ++ xs = done.flatMap Prod.snd ++ ys) :
    List.Forall₂ Of rs done ∧ us = ws ∧ xs = ys := by
  induction rs generalizing done
  case nil =>
    obtain rfl : done = [] := by simpa using commands.symm
    exact ⟨.nil, by simpa using sessions, by simpa using chunks⟩
  case cons r rs ih =>
    obtain ⟨s, done, rfl, command, commands⟩ := List.map_eq_cons_iff.mp commands.symm
    have ⟨finish, finished⟩ := List.forall_mem_cons.mp finished
    have ⟨hended, ended⟩ := List.forall_mem_cons.mp ended
    have ⟨session, hs⟩ := Option.isSome_iff_exists.mp finish.session
    rw [List.filterMap_cons_some hs, List.map_cons, List.cons_append, List.cons_append,
      List.cons.injEq] at sessions
    rw [List.flatMap_cons, List.flatMap_cons, List.append_assoc, List.append_assoc] at chunks
    have ⟨received, chunks⟩ := Ended.append_inj finish.ended hended chunks
    have ⟨rest, hus, hxs⟩ := ih finished ended commands.symm sessions.right chunks
    refine ⟨.cons ?_ rest, hus, hxs⟩
    exact {
      command  := command.symm
      session  := by simpa [hs] using sessions.left
      headless := by simp [hs]
      received := received ▸ List.prefix_rfl
    }

end Receipt

namespace Receiver

variable {v : Receiver} {rs : List Receipt} {streams : List Stream} {sessions : List SessionId}
  {chunks : List Chunk} {delivered : List Delivery} {commands : List ForwardCommand}
  {headers : List SessionId} {buffer : List Chunk}

theorem Position.of_hand {hand : List Stream} {session : List SessionId} {taken : List Chunk}
    {part : List Delivery} (h : Position v hand session taken part) (hp : v.phase ≠ .idle) :
    ∃ s, hand = [s] ∧ session <+: [s.1.session] ∧ taken <+: s.2 := by
  cases h
  case idle   => exact absurd rfl hp
  case header => exact ⟨_, rfl, List.nil_prefix, List.nil_prefix⟩
  case chunks => exact ⟨_, rfl, List.prefix_rfl, List.prefix_append _ _⟩

theorem Booked.forall₂ (booked : v.Booked rs)
    (aligned : Aligned streams sessions chunks delivered v commands headers buffer)
    (ended : ∀ s ∈ streams, Ended s.2)
    (hc : rs.map Receipt.command ++ commands = streams.map Prod.fst)
    (hs : rs.filterMap Receipt.session ++ headers = sessions)
    (hb : rs.flatMap Receipt.received ++ buffer = chunks) :
    List.Forall₂ Receipt.Of rs (streams.take rs.length) := by
  obtain @⟨hand, session, taken, part, done, queue, position, rfl, rfl, rfl, rfl, _⟩ := aligned
  rw [List.map_append, List.append_cancel_right_eq] at hc
  have hlength : rs.length = (done ++ hand).length := by simpa using congrArg List.length hc
  rw [hlength, List.take_left]
  have hended : ∀ s ∈ done, Ended s.2 := fun s hs => ended s (by simp [hs])
  rw [List.append_assoc] at hs hb
  cases booked
  case idle hp finished =>
    obtain ⟨rfl, rfl, rfl, rfl⟩ := position.of_idle hp
    have ⟨parts, _⟩ := Receipt.of_finished finished hended (by simpa using hc) hs hb
    simpa using parts
  case hand rs r finished unfinished state =>
    obtain ⟨s, rfl, hsession, htaken⟩ :=
      position.of_hand (by rw [state]; exact Receipt.phase_ne_idle r)
    rw [List.map_append, List.map_append] at hc
    have ⟨hdone, hcommand⟩ := List.append_inj' hc rfl
    rw [List.filterMap_append, List.append_assoc] at hs
    rw [List.flatMap_append, List.append_assoc] at hb
    have ⟨parts, hs, hb⟩ := Receipt.of_finished finished hended hdone hs hb
    replace hs := List.append_cancel_right hs
    replace hb := List.append_cancel_right hb
    refine List.rel_append parts (.cons ?_ .nil)
    exact {
      command  := by simpa using hcommand
      session  := by
        intro session' hm
        rw [List.filterMap_cons_some hm] at hs
        rw [← hs] at hsession
        simpa using hsession
      headless := unfinished.headless
      received := by simpa [← hb] using htaken
    }

end Receiver

namespace Receipt

structure Enabled (r : Receipt) : Prop where
  command : r.enabled = true
  chunks  : ∀ c ∈ r.chunks, c.1 = true

theorem enabled_enter {rs : List Receipt} (h : ∀ r ∈ rs, r.Enabled) (commands : List ForwardCommand)
    (sessions : List SessionId) (chunks : List Chunk) :
    ∀ r ∈ enter rs true commands sessions chunks, r.Enabled := by
  have started : ∀ r ∈ rs ++ commands.map (start true), r.Enabled :=
    List.forall_mem_append.mpr ⟨h, List.forall_mem_map.mpr fun _ _ => ⟨rfl, by simp [start]⟩⟩
  obtain he | ⟨qs, q, he⟩ := (rs ++ commands.map (start true)).eq_nil_or_concat
  case inl =>
    rw [enter, he]
    exact List.forall_mem_nil _
  case inr =>
    rw [he, List.concat_eq_append] at started
    obtain ⟨hqs, hq⟩ := List.forall_mem_append.mp started
    obtain ⟨hcommand, hchunks⟩ := hq q (List.mem_singleton_self q)
    rw [enter, he, List.concat_eq_append, List.modifyLast_concat]
    refine List.forall_mem_append.mpr ⟨hqs, List.forall_mem_singleton.mpr ⟨hcommand, ?_⟩⟩
    exact List.forall_mem_append.mpr ⟨hchunks, by simp⟩

end Receipt

namespace Frame

theorem enabled_receipts {ts : List (Bool × Turn)} (h : ∀ t ∈ ts, t.1 = true) :
    ∀ r ∈ receipts ts, r.Enabled := by
  induction ts using List.reverseRecOn
  case nil => exact nofun
  case append_singleton ts t ih =>
    obtain ⟨enable, t⟩ := t
    have ⟨hts, ht⟩ := List.forall_mem_append.mp h
    obtain rfl : enable = true := by simpa using ht
    rw [receipts_concat]
    exact Receipt.enabled_enter (ih hts) _ _ _

end Frame

namespace Interface

variable {c : Config} {x x₀ : Interface} {cs : History} {engine : Engine}

theorem marked_enabled (run : Run tick (serving engine) x₀ cs x) : ∀ t ∈ marked cs, t.1 = true := by
  induction run
  case start => simp [marked]
  case next allowed _ ih =>
    rw [marked_concat]
    exact List.forall_mem_append.mpr ⟨ih, List.forall_mem_map.mpr fun _ _ => allowed.left⟩

theorem conserved_of_run (hc : create c = .ok x₀) (run : Run tick .any x₀ cs x) :
    Frame.Accounted (marked cs) x.net ∧ Frame.Conserved (marked cs) x.net := by
  have hn := network_of_create hc
  have ⟨_, _, _, hr, _⟩ := Network.create_ok hn
  exact marked_invariant_of_run
    (P := fun ts n => Frame.Accounted ts n ∧ Frame.Conserved ts n) run
    ⟨.start hr, .start hn⟩ fun step ⟨accounted, conserved⟩ =>
      ⟨accounted.turn step, conserved.turn accounted.booked step⟩

-- The receive side takes the streams that the engine answers with, one after the other.
theorem parts_of_run (hc : create c = .ok x₀) (run : Run tick (serving engine) x₀ cs x) :
    List.Forall₂ Receipt.Of (Frame.receipts (marked cs))
      ((engine.streams (Frame.commands (turns cs))).take (Frame.receipts (marked cs)).length) := by
  have ⟨accounted, conserved⟩ := conserved_of_run hc run.forget
  have served := (underway_of_run hc run).served
  have ⟨commands, sessions, chunks⟩ := conserved
  rw [marked_map_snd] at commands sessions chunks
  refine accounted.booked.forall₂ served.receiver ?_ ?_ sessions chunks
  · exact fun s hs => (Engine.streams_carries served.nonempty s hs).ended
  · rw [commands, Engine.streams_fst]

end Interface

end ShellInterface.Tcp

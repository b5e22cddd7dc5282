import ShellInterface.Listener
import ShellInterface.Proofs.Run

namespace ShellInterface.Listener

inductive Step (enable : Bool) (l : Listener) (s : Links) : List Note → Listener → Links → Prop
  | sleep (phase : l.phase = .idle) (disabled : enable = false) : Step enable l s [] l s
  | wake (phase : l.phase = .idle) (enabled : enable = true) : Step enable l s [] l.proceed s
  | stall {port} (phase : l.phase = .request) (inHand : l.ports[l.opened]? = some port)
      (full : s.requests.isFull = true) :
      Step enable l s [.remark l.origin (.listenStalled port)] l s
  | ask {port requests} (phase : l.phase = .request) (inHand : l.ports[l.opened]? = some port)
      (write : s.requests.write port = .ok requests) :
      Step enable l s [.remark l.origin (.listenRequested port)]
        { l with watchdog := l.watchdog.arm, phase := .await } { s with requests }
  | wait (phase : l.phase = .await) (empty : s.replies.items = [])
      (running : l.watchdog.tick.isExpired = false) :
      Step enable l s [] { l with watchdog := l.watchdog.tick } s
  | expire {port} (phase : l.phase = .await) (inHand : l.ports[l.opened]? = some port)
      (empty : s.replies.items = []) (expired : l.watchdog.tick.isExpired = true) :
      Step enable l s [.fault l.origin (.listenTimeout port), .count .listenRetries 1]
        { l with watchdog := l.watchdog.tick, phase := .request } s
  | confirm {port rest} (phase : l.phase = .await) (inHand : l.ports[l.opened]? = some port)
      (reply : s.replies.items = true :: rest) :
      Step enable l s [.remark l.origin (.listening port), .count .listenedPorts 1]
        { l with watchdog := l.watchdog.tick, opened := l.opened + 1 }.proceed
        { s with replies := s.replies.tail }
  | deny {port rest} (phase : l.phase = .await) (inHand : l.ports[l.opened]? = some port)
      (reply : s.replies.items = false :: rest) :
      Step enable l s [.fault l.origin (.listenDenied port), .count .listenRetries 1]
        { l with watchdog := l.watchdog.tick, phase := .request }
        { s with replies := s.replies.tail }
  | rest (phase : l.phase = .done) : Step enable l s [] l s

variable {l l' : Listener} {s s' : Links} {enable : Bool} {ns : List Note}

theorem port_eq_ok_iff {p : Port} : l.port = .ok p ↔ l.ports[l.opened]? = some p := by
  unfold port
  cases l.ports[l.opened]? <;> simp

theorem step_of_request (hp : l.phase = .request) (h : l.request s = ⟨ns, .ok (l', s')⟩) :
    Step enable l s ns l' s' := by
  cases hi : l.port <;> simp [request, hi] at h
  case ok port =>
    replace hi := port_eq_ok_iff.mp hi
    cases hf : s.requests.isFull
    case true =>
      simp only [hf] at h
      obtain ⟨rfl, rfl, rfl⟩ := h
      exact .stall hp hi hf
    case false =>
      have ⟨requests, hw⟩ := Fifo.write_of_not_isFull (a := port) hf
      simp [hf, hw] at h
      obtain ⟨rfl, rfl, rfl⟩ := h
      exact .ask hp hi hw

theorem step_of_await (hp : l.phase = .await) (h : l.await s = ⟨ns, .ok (l', s')⟩) :
    Step enable l s ns l' s' := by
  cases hi : port { l with watchdog := l.watchdog.tick } <;> simp [await, hi] at h
  case ok port =>
    replace hi := port_eq_ok_iff.mp hi
    rcases hr : s.replies.items with _ | ⟨b, bs⟩
    case nil =>
      cases hx : l.watchdog.tick.isExpired <;> simp [Fifo.isEmpty, hr, hx] at h
      all_goals obtain ⟨rfl, rfl, rfl⟩ := h
      case false => exact .wait hp hr hx
      case true  => exact .expire hp hi hr hx
    case cons =>
      simp [Fifo.isEmpty, hr, Fifo.read_of_items hr] at h
      cases b <;> simp at h <;> obtain ⟨rfl, rfl, rfl⟩ := h
      case false => exact .deny hp hi hr
      case true  => exact .confirm hp hi hr

theorem step_of_tick (h : l.tick enable s = ⟨ns, .ok (l', s')⟩) : Step enable l s ns l' s' := by
  cases hp : l.phase <;> simp only [tick, hp] at h
  case idle =>
    cases enable <;> cases h
    case false => exact .sleep hp rfl
    case true  => exact .wake hp rfl
  case request => exact step_of_request hp h
  case await   => exact step_of_await hp h
  case done =>
    cases h
    exact .rest hp

theorem Step.preserves_ports (h : Step enable l s ns l' s') : l'.ports = l.ports := by
  cases h <;> rfl

theorem proceed_phase_ne_await (l : Listener) : l.proceed.phase ≠ .await := by
  unfold proceed
  split <;> nofun

theorem proceed_done (h : l.proceed.phase = .done) : l.ports.length ≤ l.opened := by
  unfold proceed at h
  split at h
  case isTrue  => cases h
  case isFalse => omega

theorem Step.preserves_done (h : Step enable l s ns l' s')
    (hl : l.phase = .done → l.ports.length ≤ l.opened) (hd : l'.phase = .done) :
    l'.ports.length ≤ l'.opened := by
  cases h
  case wake      => exact proceed_done hd
  case confirm   => exact proceed_done hd
  case sleep hp _ => exact hl hd
  case rest hp   => exact hl hp
  all_goals simp_all

inductive Effect (l l' : Listener) : List Port → List Bool → Bool → Bool → Prop
  | quiet (opened : l'.opened = l.opened) (await : l'.phase = .await ↔ l.phase = .await) :
      Effect l l' [] [] false false
  | ask {port} (inHand : l.ports[l.opened]? = some port) (opened : l'.opened = l.opened)
      (before : l.phase ≠ .await) (after : l'.phase = .await) : Effect l l' [port] [] false false
  | expire (opened : l'.opened = l.opened) (before : l.phase = .await)
      (after : l'.phase ≠ .await) : Effect l l' [] [] false true
  | deny (opened : l'.opened = l.opened) (before : l.phase = .await)
      (after : l'.phase ≠ .await) : Effect l l' [] [false] true false
  | grant (opened : l'.opened = l.opened + 1) (before : l.phase = .await)
      (after : l'.phase ≠ .await) : Effect l l' [] [true] false false

def denies : Note → Bool
  | .fault _ (.listenDenied _) => true
  | _                          => false

def expires : Note → Bool
  | .fault _ (.listenTimeout _) => true
  | _                           => false

theorem Step.effect (h : Step enable l s ns l' s') :
    Effect l l' (s.requests.added s'.requests) (s.replies.taken s'.replies) (ns.any denies)
      (ns.any expires) := by
  cases h <;> simp only [List.any_nil, List.any_cons, denies, expires, Fifo.added_self,
    Fifo.taken_self, Bool.or_false]
  case sleep hp _       => exact .quiet rfl (by simp [hp])
  case wake hp _        => exact .quiet rfl (by simp [hp, proceed_phase_ne_await])
  case stall hp _ _     => exact .quiet rfl (by simp [hp])
  case ask hp hi hw     => exact Fifo.added_of_write hw ▸ .ask hi rfl (by simp [hp]) rfl
  case wait hp _ _      => exact .quiet rfl (by simp [hp])
  case expire hp _ _ _  => exact .expire rfl hp nofun
  case confirm hp _ hr  => exact Fifo.taken_tail hr ▸ .grant rfl hp (proceed_phase_ne_await _)
  case deny hp _ hr     => exact Fifo.taken_tail hr ▸ .deny rfl hp nofun
  case rest hp          => exact .quiet rfl (by simp [hp])

end ShellInterface.Listener

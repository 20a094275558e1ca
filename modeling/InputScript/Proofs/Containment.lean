import InputScript.Proofs.Availability
import InputScript.Proofs.Operands

namespace InputScript

def Outcome.map {α β : Type} (f : α → β) : Outcome α → Outcome β
  | done value => .done (f value)
  | failed error => .failed error
  | replays value => .replays (f value)

def Reply.map {σ ε α β : Type} (f : α → β) (r : Reply σ ε α) : Reply σ ε β :=
  ⟨r.state, r.emitted, r.outcome.map f⟩

inductive Desktop.Request where
  | press (s : Symbol)
  | release (s : Symbol)
  | moveTo (place : Point)
  | pointer
  | flush
deriving DecidableEq

def Desktop.Request.sends : Desktop.Request → Bool
  | .press _ | .release _ | .flush => true
  | .moveTo _ | .pointer => false

def Desktop.reply {σ ε : Type} (d : Desktop σ ε) (x : σ) : Desktop.Request → Reply σ ε (Option Point)
  | .press k => (d.press k x).map fun _ => none
  | .release k => (d.release k x).map fun _ => none
  | .moveTo place => (d.moveTo place x).map fun _ => none
  | .pointer => (d.pointer x).map some
  | .flush => (d.flush x).map fun _ => none

structure Attempt where
  request : Desktop.Request
  failure : HostOperation → Option String

structure Exchange where
  before : Live
  request : Desktop.Request
  reply : Reply Live HostCall (Option Point)

namespace Exchange

variable {x : Exchange}

def Completes (x : Exchange) : Prop :=
  ∃ answer, x.reply.outcome = .done answer

def Moves (x : Exchange) : Prop :=
  x.Completes ∧ ∃ place, x.request = .moveTo place

structure Contained (h : Host) (x : Exchange) : Prop where
  answered : x.Completes ∨ ∃ e, e.desktop = Live.name ∧ x.reply.outcome = .failed e
  unchanged : ∀ e, x.reply.outcome = .failed e → x.reply.emitted = [] ∧ x.reply.state = x.before
  absent : ∀ k name, x.request = .press (.key k) ∨ x.request = .release (.key k) → k.target = .named name →
    h.lacksKey name = true → x.reply = .fails x.before ⟨Live.name, .keyUnavailable k⟩
  wheel : ∀ b : Button, b.isScroll = true → x.request = .release (.button b) → x.reply = .silent x.before none
  within : ∀ place, x.reply.outcome = .done (some place) → place.Within 65535

end Exchange

theorem Point.within_clamp (place : Point) : place.clamp.Within 65535 :=
  ⟨⟨clampCoordinate_nonneg _, clampCoordinate_le _⟩, clampCoordinate_nonneg _, clampCoordinate_le _⟩

namespace Live

variable {h : Host} {l : Live} {r : Desktop.Request} {place : Point} {attempts : List Attempt} {x query : Exchange}
  {earlier between later : List Exchange}

def failing (l : Live) (failure : HostOperation → Option String) : Live :=
  ⟨{ l.host with failure }⟩

def pointedAt (l : Live) (place : Point) : Live :=
  ⟨{ l.host with pointer := [(place.x : Rat), (place.y : Rat)] }⟩

def exchanges : Live → List Attempt → List Exchange
  | _, [] => []
  | l, a :: rest =>
    let before := l.failing a.failure
    let reply := desktop.reply before a.request
    ⟨before, a.request, reply⟩ :: exchanges reply.state rest

inductive Replies (l : Live) : Desktop.Request → Reply Live HostCall (Option Point) → Prop
  | failed {r : Desktop.Request} (trouble : Trouble) : Replies l r (.fails l (error trouble))
  | sent {r : Desktop.Request} (calls : List HostCall) : r.sends = true → Replies l r ⟨l, calls, .done none⟩
  | moved (place : Point) : Replies l (.moveTo place) (.emits (l.pointedAt place.clamp) (.mouseMove place.clamp) none)
  | read {x y : Rat} : l.host.pointer = [x, y] →
      Replies l .pointer (.silent l (some (Point.clamp ⟨Number.truncate x, Number.truncate y⟩)))

theorem replies_send (hr : r.sends = true) (l : Live) (call : HostCall) :
    Replies l r ((l.send call).map fun _ => none) := by
  unfold send
  cases l.host.failure call.operation with
  | none => exact .sent [call] hr
  | some reason => exact .failed (.cannotSend reason)

theorem replies_sendKey (hr : r.sends = true) (l : Live) (k : Key) (call : Target → HostCall) :
    Replies l r ((l.sendKey k call).map fun _ => none) := by
  unfold sendKey
  cases l.host.target? k with
  | none => exact .failed (.keyUnavailable k)
  | some target => exact replies_send hr l (call target)

theorem replies_reply (l : Live) (r : Desktop.Request) : Replies l r (desktop.reply l r) := by
  cases r with
  | press k =>
    have hr : (Desktop.Request.press k).sends = true := rfl
    cases k with
    | key k => exact replies_sendKey hr l k _
    | button b => cases b <;> exact replies_send hr l _
  | release k =>
    have hr : (Desktop.Request.release k).sends = true := rfl
    cases k with
    | key k => exact replies_sendKey hr l k _
    | button b =>
      cases b with
      | left | middle | right => exact replies_send hr l _
      | scrollUp | scrollDown => exact .sent [] hr
  | moveTo place =>
    change Replies l _ ((moveTo place l).map _)
    unfold moveTo
    cases l.host.failure .mouseMove with
    | none => exact .moved place
    | some reason => exact .failed (.cannotMove reason)
  | pointer =>
    change Replies l _ ((pointer l).map _)
    unfold pointer
    cases l.host.failure .mouseRead with
    | some reason => exact .failed (.cannotReadPointer reason)
    | none =>
      dsimp only
      split
      · exact .read ‹_›
      · exact .failed (.cannotReadPointer _)
  | flush => exact .sent [] rfl

theorem reply_absent {k : Key} {name : String} (hr : r = .press (.key k) ∨ r = .release (.key k))
    (htarget : k.target = .named name) (hlacks : l.host.lacksKey name = true) :
    desktop.reply l r = .fails l ⟨Live.name, .keyUnavailable k⟩ := by
  have hnone : l.host.target? k = none := by
    unfold Host.target?
    rw [htarget]
    exact if_pos hlacks
  have hsend (call : Target → HostCall) : l.sendKey k call = .fails l (error (.keyUnavailable k)) := by
    unfold sendKey
    rw [hnone]
  rcases hr with rfl | rfl
  · change (l.sendKey k .keyboardPress).map _ = _
    rw [hsend]
    rfl
  · change (l.sendKey k .keyboardRelease).map _ = _
    rw [hsend]
    rfl

theorem reply_wheel {b : Button} (hb : b.isScroll = true) (l : Live) :
    desktop.reply l (.release (.button b)) = .silent l none := by
  cases b with
  | left | middle | right => cases hb
  | scrollUp | scrollDown => rfl

section

variable {reply : Reply Live HostCall (Option Point)} (hreply : Replies l r reply)

include hreply

theorem Replies.answered :
    (∃ answer, reply.outcome = .done answer) ∨ ∃ e, e.desktop = Live.name ∧ reply.outcome = .failed e := by
  cases hreply with
  | failed trouble => exact .inr ⟨error trouble, rfl, rfl⟩
  | sent | moved | read => exact .inl ⟨_, rfl⟩

theorem Replies.unchanged {e : DesktopError} (he : reply.outcome = .failed e) :
    reply.emitted = [] ∧ reply.state = l := by
  cases hreply with
  | failed trouble => exact ⟨rfl, rfl⟩
  | sent | moved | read => cases he

theorem Replies.within (hplace : reply.outcome = .done (some place)) : place.Within 65535 := by
  cases hreply with
  | failed | sent | moved => cases hplace
  | read hpointer =>
    cases hplace
    exact Point.within_clamp _

theorem Replies.lacksKey : reply.state.host.lacksKey = l.host.lacksKey := by
  cases hreply <;> rfl

theorem Replies.pointer_eq (hmove : (∃ answer, reply.outcome = .done answer) → ∀ place, r ≠ .moveTo place) :
    reply.state.host.pointer = l.host.pointer := by
  cases hreply with
  | failed | sent | read => rfl
  | moved place => exact absurd rfl (hmove ⟨_, rfl⟩ place)

end

theorem Replies.moved_to {reply : Reply Live HostCall (Option Point)} (hreply : Replies l (.moveTo place) reply)
    {answer : Option Point} (hdone : reply.outcome = .done answer) : reply.state = l.pointedAt place.clamp := by
  cases hreply with
  | failed trouble => cases hdone
  | sent calls hr => cases hr
  | moved => rfl

theorem Replies.read_back {reply : Reply Live HostCall (Option Point)} (hreply : Replies l .pointer reply)
    {answer : Option Point} (hdone : reply.outcome = .done answer)
    (hpointer : l.host.pointer = [(place.clamp.x : Rat), (place.clamp.y : Rat)]) : answer = some place.clamp := by
  cases hreply with
  | failed trouble => cases hdone
  | sent calls hr => cases hr
  | read hread =>
    cases hdone
    obtain ⟨rfl, hy⟩ := List.cons.inj (hread.symm.trans hpointer)
    obtain ⟨rfl, -⟩ := List.cons.inj hy
    rw [Number.truncate_intCast, Number.truncate_intCast, place.within_clamp.clamp_eq]

theorem contained {h : Host} (hl : l.host.lacksKey = h.lacksKey) (r : Desktop.Request) :
    Exchange.Contained h ⟨l, r, desktop.reply l r⟩ where
  answered := (replies_reply l r).answered
  unchanged _ he := (replies_reply l r).unchanged he
  absent k name hr htarget hlacks := reply_absent hr htarget (hl ▸ hlacks)
  wheel b hb hr := by
    cases hr
    exact reply_wheel hb l
  within _ hplace := (replies_reply l r).within hplace

theorem contained_exchanges {h : Host} (hl : l.host.lacksKey = h.lacksKey) (attempts : List Attempt) :
    ∀ x ∈ l.exchanges attempts, x.Contained h := by
  induction attempts generalizing l with
  | nil => exact List.forall_mem_nil _
  | cons a attempts ih =>
    have hnext := (replies_reply (l.failing a.failure) a.request).lacksKey
    exact List.forall_mem_cons.mpr ⟨contained (l := l.failing a.failure) hl a.request, ih (hnext.trans hl)⟩

theorem exchanges_cons (h : l.exchanges attempts = x :: later) :
    Replies x.before x.request x.reply ∧ x.before.host.pointer = l.host.pointer ∧
      ∃ rest, later = x.reply.state.exchanges rest := by
  cases attempts with
  | nil => cases h
  | cons a rest =>
    cases h
    exact ⟨replies_reply (l.failing a.failure) a.request, rfl, rest, rfl⟩

theorem exchanges_append (h : l.exchanges attempts = earlier ++ later) :
    ∃ (m : Live) (rest : List Attempt), later = m.exchanges rest := by
  induction earlier generalizing l attempts with
  | nil => exact ⟨l, attempts, h.symm⟩
  | cons x earlier ih =>
    obtain ⟨-, -, rest, hrest⟩ := exchanges_cons h
    exact ih hrest.symm

theorem pointer_of_between (h : l.exchanges attempts = between ++ query :: later)
    (hstays : ∀ x ∈ between, ¬ x.Moves) : query.before.host.pointer = l.host.pointer := by
  induction between generalizing l attempts with
  | nil => exact (exchanges_cons h).2.1
  | cons x between ih =>
    obtain ⟨hx, hstays⟩ := List.forall_mem_cons.mp hstays
    obtain ⟨hreplies, hbefore, rest, hrest⟩ := exchanges_cons h
    have hkept := hreplies.pointer_eq fun hdone place hmove => hx ⟨hdone, place, hmove⟩
    exact (ih hrest.symm hstays).trans (hkept.trans hbefore)

/-- Each request to a live desktop is contained, whatever fails in its host and when. Where the pointer is asked for
after a move, it is found where the last move that was made put it. -/
theorem failures_contained {h : Host} (hl : connect h = .ok l) (attempts : List Attempt) :
    (∀ x ∈ l.exchanges attempts, x.Contained h) ∧
      ∀ earlier move between query later place answer,
        l.exchanges attempts = earlier ++ move :: (between ++ query :: later) →
        move.request = .moveTo place → move.Completes → (∀ x ∈ between, ¬ x.Moves) →
        query.request = .pointer → query.reply.outcome = .done answer → answer = some place.clamp := by
  refine ⟨contained_exchanges (by rw [host_of_connect hl]) attempts, ?_⟩
  rintro earlier ⟨before, request, reply⟩ between ⟨before', request', reply'⟩ later place answer hxs rfl
    ⟨moved, hmoved⟩ hstays rfl hanswer
  -- The history is cut before the move and again before the question. Between them the pointer stays.
  obtain ⟨m, rest, hmove⟩ := exchanges_append hxs
  obtain ⟨hreplies, -, rest', hbetween⟩ := exchanges_cons hmove.symm
  have hpointer := pointer_of_between hbetween.symm hstays
  obtain ⟨n, rest'', hquery⟩ := exchanges_append hbetween.symm
  obtain ⟨hreplies', -, -⟩ := exchanges_cons hquery.symm
  rw [hreplies.moved_to hmoved] at hpointer
  exact hreplies'.read_back hanswer hpointer

theorem failures_contained_of_failed_move :
    let h : Host := { Host.working with pointer := [7 / 2], lacksKey := (· == "esc") }
    let works : HostOperation → Option String := fun _ => none
    let fails : HostOperation → Option String := fun _ => some "connection lost"
    let attempts : List Attempt := [⟨.pointer, works⟩, ⟨.moveTo ⟨-10, 70000⟩, works⟩,
      ⟨.press (.key (.control .escape)), works⟩, ⟨.moveTo ⟨1, 2⟩, fails⟩, ⟨.release (.button .scrollUp), fails⟩,
      ⟨.pointer, works⟩]
    connect h = .ok ⟨h⟩ ∧ ∃ first move press again release last,
      exchanges ⟨h⟩ attempts = [first] ++ move :: ([press, again, release] ++ last :: []) ∧
        move.request = .moveTo ⟨-10, 70000⟩ ∧ move.Completes ∧ (∀ x ∈ [press, again, release], ¬ x.Moves) ∧
        last.request = .pointer ∧ ¬ first.Completes ∧ press.Contained h ∧
        press.reply.outcome = .failed ⟨Live.name, .keyUnavailable (.control .escape)⟩ ∧
        last.reply.outcome = .done (some ⟨0, 65535⟩) := by
  intro h works fails attempts
  have hl : connect h = .ok ⟨h⟩ := connect_of_usable rfl (by decide +kernel)
  obtain ⟨hcontained, hfound⟩ := failures_contained hl attempts
  have hpress := hcontained _ (.tail _ (.tail _ (.head _)))
  have hstays : ∀ x ∈ (exchanges ⟨h⟩ attempts).drop 2 |>.take 3, ¬ x.Moves := by
    rintro x hx ⟨⟨answer, hanswer⟩, place, hplace⟩
    rcases hx with _ | ⟨_, _ | ⟨_, _ | ⟨_, _ | _⟩⟩⟩
    · cases hplace
    · cases hanswer
    · cases hplace
  refine ⟨hl, _, _, _, _, _, _, rfl, rfl, ⟨_, rfl⟩, hstays, rfl, ?_, hpress, ?_, ?_⟩
  · rintro ⟨answer, hanswer⟩
    cases hanswer
  · rw [hpress.absent (.control .escape) "esc" (.inl rfl) rfl rfl]
    rfl
  · have hplace := hfound [_] _ [_, _, _] _ [] ⟨-10, 70000⟩ _ rfl rfl ⟨_, rfl⟩ hstays rfl rfl
    exact congrArg Outcome.done hplace

end Live

end InputScript

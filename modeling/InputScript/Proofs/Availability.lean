import InputScript.Desktop.Registry
import Mathlib.Data.List.Forall2

namespace InputScript

namespace Host

variable {h : Host}

def refusal? (h : Host) : Option String :=
  h.importError <|> h.keyboardError <|> h.mouseError

def Complete (h : Host) : Prop :=
  h.refusal? = none → ∀ name ∈ keyAttributes ++ buttonAttributes, h.lacksAttribute name = false

theorem complete_iff : h.Complete ↔ (h.refusal? = none → h.missingAttribute? = none) := by
  simp only [Complete, missingAttribute?, List.find?_eq_none, Bool.not_eq_true]

end Host

namespace Live

variable {h : Host} {l : Live}

theorem connect_of_refusal {reason : String} (hrefusal : h.refusal? = some reason) :
    connect h = .error (.desktop (error (.unavailable reason))) := by
  unfold Host.refusal? at hrefusal
  unfold connect
  rw [hrefusal]

theorem connect_of_missing {name : String} (hrefusal : h.refusal? = none) (hmissing : h.missingAttribute? = some name) :
    connect h = .error (.missingAttribute name) := by
  unfold Host.refusal? at hrefusal
  unfold connect
  rw [hrefusal, hmissing]

theorem connect_of_usable (hrefusal : h.refusal? = none) (hmissing : h.missingAttribute? = none) :
    connect h = .ok ⟨h⟩ := by
  unfold Host.refusal? at hrefusal
  unfold connect
  rw [hrefusal, hmissing]

theorem connect_of_complete (hcomplete : h.Complete) :
    connect h = .ok ⟨h⟩ ∨ ∃ reason, connect h = .error (.desktop ⟨name, .unavailable reason⟩) := by
  cases hrefusal : h.refusal? with
  | some reason => exact .inr ⟨reason, connect_of_refusal hrefusal⟩
  | none => exact .inl (connect_of_usable hrefusal (Host.complete_iff.mp hcomplete hrefusal))

theorem connect_of_not_complete (hcomplete : ¬ h.Complete) :
    ∃ name, h.missingAttribute? = some name ∧ connect h = .error (.missingAttribute name) := by
  rw [Host.complete_iff, Classical.not_imp] at hcomplete
  obtain ⟨hrefusal, hmissing⟩ := hcomplete
  obtain ⟨name, hname⟩ := Option.ne_none_iff_exists'.mp hmissing
  exact ⟨name, hname, connect_of_missing hrefusal hname⟩

theorem host_of_connect (hl : connect h = .ok l) : l.host = h := by
  unfold connect at hl
  split at hl
  · cases hl
  · split at hl
    · cases hl
    · cases hl
      rfl

end Live

namespace Backend

variable {h : Host}

theorem ofName?_name (b : Backend) : ofName? b.name = some b := by
  cases b <;> rfl

theorem choose_name (h : Host) (names : List String) (b : Backend) : choose h names (some b.name) = b.connect h := by
  simp only [choose, connectNamed, ofName?_name]

theorem connect_live (h : Host) : Backend.live.connect h = (Live.connect h).map .live := rfl

def firstBuilt (h : Host) (bs : List Backend) : Except ConnectError Connected :=
  match bs.findSome? fun b => (b.connect h).toOption with
  | some c => .ok c
  | none => .error (registryError .noneAvailable)

theorem connect_of_complete (hcomplete : h.Complete) (b : Backend) :
    (∃ c, b.connect h = .ok c) ∨ ∃ name reason, b.connect h = .error (.desktop ⟨name, .unavailable reason⟩) := by
  cases b with
  | dryRun => exact .inl ⟨_, rfl⟩
  | live =>
    rw [connect_live]
    rcases Live.connect_of_complete hcomplete with hl | ⟨reason, hl⟩
    · exact .inl ⟨.live ⟨h⟩, by rw [hl, Except.map]⟩
    · exact .inr ⟨Live.name, reason, by rw [hl, Except.map]⟩

theorem connectFirst_eq_firstBuilt (hcomplete : h.Complete) (bs : List Backend) :
    connectFirst h (bs.map name) = firstBuilt h bs := by
  induction bs with
  | nil => rfl
  | cons b bs ih =>
    rw [List.map_cons, connectFirst, ofName?_name]
    -- Only a desktop that is unavailable is passed over, and nothing else can go wrong here.
    rcases connect_of_complete hcomplete b with ⟨c, hb⟩ | ⟨name, reason, hb⟩
    · simp only [firstBuilt, List.findSome?_cons, hb, Except.toOption]
    · simp only [hb, Trouble.isUnavailable, if_true, ih, firstBuilt, List.findSome?_cons, Except.toOption]

end Backend

namespace Probe

variable {h : Host}

inductive Agrees (h : Host) (b : Backend) : Probe → Prop
  | available {c : Connected} : Backend.choose h Backend.candidates (some b.name) = .ok c → Agrees h b ⟨b.name, true, ""⟩
  | unavailable {e : DesktopError} : Backend.choose h Backend.candidates (some b.name) = .error (.desktop e) →
      Agrees h b ⟨b.name, false, e.detail⟩

theorem ofBackend_of_complete (hcomplete : h.Complete) (b : Backend) :
    ∃ row, ofBackend h b = .ok row ∧ Agrees h b row := by
  have hchoose := Backend.choose_name h Backend.candidates b
  rcases Backend.connect_of_complete hcomplete b with ⟨c, hb⟩ | ⟨name, reason, hb⟩
  · exact ⟨_, by simp only [ofBackend, hb], .available (hchoose.trans hb)⟩
  · exact ⟨_, by simp only [ofBackend, hb], .unavailable (hchoose.trans hb)⟩

theorem exists_rows {bs : List Backend} (hcomplete : h.Complete) :
    ∃ rows, bs.mapM (ofBackend h) = .ok rows ∧ List.Forall₂ (Agrees h) bs rows := by
  induction bs with
  | nil => exact ⟨[], rfl, .nil⟩
  | cons b bs ih =>
    obtain ⟨row, hrow, hagrees⟩ := ofBackend_of_complete hcomplete b
    obtain ⟨rows, hrows, hall⟩ := ih
    refine ⟨row :: rows, ?_, .cons hagrees hall⟩
    rw [List.mapM_cons, hrow, hrows]
    rfl

end Probe

namespace Host

variable {h : Host} {name : String}

structure Reported (h : Host) : Prop where
  builds : (∃ l, Live.connect h = .ok l) ∨
    ∃ reason, Live.connect h = .error (.desktop ⟨Live.name, .unavailable reason⟩)
  chooses : ∀ bs : List Backend, Backend.choose h (bs.map Backend.name) none = Backend.firstBuilt h bs
  probes : ∃ rows, Probe.all h = .ok rows ∧ List.Forall₂ (Probe.Agrees h) Backend.all rows

structure EndsWith (h : Host) (name : String) : Prop where
  built : Live.connect h = .error (.missingAttribute name)
  named : Backend.choose h Backend.candidates (some Live.name) = .error (.missingAttribute name)
  chosen : Backend.choose h Backend.candidates none = .error (.missingAttribute name)
  probed : Probe.all h = .error (.missingAttribute name)

theorem reported_of_complete (hcomplete : h.Complete) : h.Reported where
  builds := (Live.connect_of_complete hcomplete).imp_left fun hl => ⟨_, hl⟩
  chooses := Backend.connectFirst_eq_firstBuilt hcomplete
  probes := Probe.exists_rows hcomplete

theorem endsWith_of_connect (hl : Live.connect h = .error (.missingAttribute name)) : h.EndsWith name := by
  have hb : Backend.live.connect h = .error (.missingAttribute name) := by
    rw [Backend.connect_live, hl, Except.map]
  have hname : Backend.ofName? Live.name = some .live := rfl
  refine ⟨hl, (Backend.choose_name h _ .live).trans hb, ?_, ?_⟩
  · simp only [Backend.choose, Backend.candidates, Backend.connectFirst, hname, hb]
  · have hprobe : Probe.ofBackend h .live = .error (.missingAttribute name) := by
      simp only [Probe.ofBackend, hb]
    rw [Probe.all, Backend.all, List.mapM_cons, hprobe]
    rfl

theorem EndsWith.not_reported (h' : h.EndsWith name) : ¬ h.Reported := by
  rintro ⟨hbuilds, -, -⟩
  rw [h'.built] at hbuilds
  rcases hbuilds with ⟨l, hl⟩ | ⟨reason, hl⟩
  · cases hl
  · cases hl

/-- Whatever cannot be used is reported exactly if the library has all its attributes or says that it cannot be used.
Otherwise the first attribute that is missing ends it all. -/
theorem reported_iff_complete (h : Host) :
    (h.Reported ↔ h.Complete) ∧ (h.Reported ∨ ∃ name, h.missingAttribute? = some name ∧ h.EndsWith name) := by
  by_cases hcomplete : h.Complete
  · have hreported := reported_of_complete hcomplete
    exact ⟨iff_of_true hreported hcomplete, .inl hreported⟩
  · obtain ⟨name, hname, hl⟩ := Live.connect_of_not_complete hcomplete
    have hends := endsWith_of_connect hl
    exact ⟨iff_of_false hends.not_reported hcomplete, .inr ⟨name, hname, hends⟩⟩

theorem not_reported_of_no_escape :
    let h : Host := { working with lacksAttribute := (· == "esc") }
    ¬ h.Reported ∧ h.EndsWith "esc" := by
  intro h
  have hmissing : h.missingAttribute? = some "esc" := by decide +kernel
  have hends := endsWith_of_connect (Live.connect_of_missing rfl hmissing)
  exact ⟨hends.not_reported, hends⟩

end Host

end InputScript

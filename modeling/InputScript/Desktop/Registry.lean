import InputScript.Desktop.DryRun
import InputScript.Desktop.Live

namespace InputScript

inductive Backend where
  | live
  | dryRun
deriving DecidableEq

inductive Connected where
  | live (l : Live)
  | dryRun (d : DryRun)

inductive Emission where
  | call (c : HostCall)
  | lines (lines : List DryRunLine)
deriving DecidableEq

namespace Backend

def all : List Backend :=
  [.live, .dryRun]

def candidates : List String :=
  [Live.name]

def name : Backend → String
  | .live => Live.name
  | .dryRun => DryRun.name

def ofName? (name : String) : Option Backend :=
  all.find? (·.name == name)

def connect (h : Host) : Backend → Except ConnectError Connected
  | .live => (Live.connect h).map .live
  | .dryRun => .ok (.dryRun .fresh)

def registryError (trouble : Trouble) : ConnectError :=
  .desktop ⟨"vinput", trouble⟩

def connectFirst (h : Host) : List String → Except ConnectError Connected
  | [] => .error (registryError .noneAvailable)
  | name :: rest =>
    match ofName? name with
    | none => .error (.unregistered name)
    | some b =>
      match b.connect h with
      | .ok c => .ok c
      | .error (.desktop e) =>
        if e.trouble.isUnavailable then connectFirst h rest else .error (.desktop e)
      | .error e => .error e

def connectNamed (h : Host) (name : String) : Except ConnectError Connected :=
  match ofName? name with
  | some b => b.connect h
  | none => .error (registryError (.unknownDesktop name))

def choose (h : Host) (candidates : List String) : Option String → Except ConnectError Connected
  | some name => connectNamed h name
  | none => connectFirst h candidates

end Backend

structure Probe where
  name : String
  available : Bool
  reason : String
deriving DecidableEq

namespace Probe

def ofBackend (h : Host) (b : Backend) : Except ConnectError Probe :=
  match b.connect h with
  | .ok _ => .ok ⟨b.name, true, ""⟩
  | .error (.desktop e) => .ok ⟨b.name, false, e.detail⟩
  -- An attribute that the library lacks is no reason, but ends the probing.
  | .error e => .error e

def all (h : Host) : Except ConnectError (List Probe) :=
  Backend.all.mapM (ofBackend h)

end Probe

namespace Connected

def backend : Connected → Backend
  | .live _ => .live
  | .dryRun _ => .dryRun

def lift {σ ε α : Type} (state : σ → Connected) (emission : ε → Emission) (r : Reply σ ε α) :
    Reply Connected Emission α :=
  ⟨state r.state, r.emitted.map emission, r.outcome⟩

def call {α : Type} (live : Live → Reply Live HostCall α)
    (dryRun : DryRun → Reply DryRun (List DryRunLine) α) : Connected → Reply Connected Emission α
  | .live l => lift .live .call (live l)
  | .dryRun d => lift .dryRun .lines (dryRun d)

def desktop : Desktop Connected Emission where
  press s := call (Live.desktop.press s) (DryRun.desktop.press s)
  release s := call (Live.desktop.release s) (DryRun.desktop.release s)
  moveTo place := call (Live.desktop.moveTo place) (DryRun.desktop.moveTo place)
  pointer := call Live.desktop.pointer DryRun.desktop.pointer
  flush := call Live.desktop.flush DryRun.desktop.flush

end Connected

end InputScript

import Cmput379.A2w22.Switch
import Cmput379.Lib.Framing
import Cmput379.Lib.Run
import Cmput379.Sdn.Buffer

/-!
# The FIFOs

The controller and its switches, connected by FIFOs of bytes: `sendPacket` appends a
message and a NUL, and a read takes at most `MAXBUF` bytes into an array with any
content. Every interleaving of traffic lines and reads is a run. The FIFOs exist, and
no write fails.

* `step`: one of the parties moves.
* `fifo_sendAll`: what holds of every FIFO, as long as sending keeps it.
-/

namespace Cmput379.A2w22

open Cmput379.Lib
open Cmput379.Sdn (nul readInto bufferString)

/-- `#define MAXBUF 1024`. -/
def MAXBUF : ℕ := 1024

/-! ## The system -/

/-- The switches with their traffic files. -/
structure Site (n : ℕ) where
  cfg : Fin n → SwitchConfig
  file : Fin n → List Text
  id_eq : ∀ k, (cfg k).switchID = (k : ℤ) + 1

/-- `fifo a b` is `nameFifo(a, b)`; the controller is 0. -/
structure Net (n : ℕ) where
  ctrl : Controller
  started : Fin n → Bool
  sw : Fin n → SwitchState
  fifo : ℤ → ℤ → Channel Char

/-- The content of `buffer` before a read, and the memory behind it. -/
structure Memory where
  buffer : Text
  beyond : Text
  deriving DecidableEq

/-- Switch `k` starts, takes its next traffic line, or reads the FIFO of a session; or
    the controller reads the FIFO of switch `k`. -/
inductive Action (n : ℕ)
  | start (k : Fin n)
  | traffic (k : Fin n)
  | switchRead (k : Fin n) (session : ℕ) (mem : Memory)
  | controllerRead (k : Fin n) (mem : Memory)
  deriving DecidableEq

/-- `string(buffer)` after the read. -/
def received (mem : Memory) (queue : Text) : Text :=
  bufferString mem.beyond (readInto mem.buffer (queue.take MAXBUF))

namespace Net

variable {n : ℕ}

def init (site : Site n) : Net n where
  ctrl := .init
  started _ := false
  sw k := .init (site.cfg k) (site.file k)
  fifo _ _ := .empty

def setFifo (net : Net n) (a b : ℤ) (c : Channel Char) : Net n :=
  { net with fifo := fun x y => if x = a ∧ y = b then c else net.fifo x y }

/-- `sendPacket`. -/
def send (net : Net n) (a : ℤ) (w : Sent) : Net n :=
  net.setFifo a w.dest ((net.fifo a w.dest).send nul w.message)

/-- The packets of one party. -/
def sendAll (net : Net n) (a : ℤ) (writes : List Sent) : Net n :=
  writes.foldl (fun net w => net.send a w) net

/-- The FIFO from `a` to `b` has been read. -/
def take (net : Net n) (a b : ℤ) (m : Text) : Net n :=
  net.setFifo a b ((net.fifo a b).receive MAXBUF m)

def setSwitch (net : Net n) (k : Fin n) (s : SwitchState) : Net n :=
  { net with sw := Function.update net.sw k s }

end Net

variable {n : ℕ}

def step (site : Site n) (net : Net n) : Action n → Option (Net n)
  | .start k =>
    if net.started k then none
    else
      let (s, writes) := (net.sw k).send_open_to_controller (site.cfg k)
      some (({ net.setSwitch k s with
          started := Function.update net.started k true } : Net n).sendAll
        (site.cfg k).switchID writes)
  | .traffic k =>
    if net.started k then
      ((net.sw k).turn (site.cfg k)).map fun (s, writes) =>
        (net.setSwitch k s).sendAll (site.cfg k).switchID writes
    else none
  | .switchRead k session mem =>
    match (site.cfg k).switch_sessions[session]? with
    | none => none
    | some session =>
      let queue := (net.fifo session.peer (site.cfg k).switchID).queue
      if net.started k ∧ queue ≠ [] then
        let s := received mem queue
        ((net.sw k).switchReceive (site.cfg k) (fields s)).map fun (sw, writes) =>
          ((net.take session.peer (site.cfg k).switchID s).setSwitch k sw).sendAll
            (site.cfg k).switchID writes
      else none
  | .controllerRead k mem =>
    let queue := (net.fifo (site.cfg k).switchID 0).queue
    if queue ≠ [] then
      let s := received mem queue
      (controllerReceive n net.ctrl (fields s)).map fun (ctrl, writes) =>
        ({ net.take (site.cfg k).switchID 0 s with ctrl := ctrl } : Net n).sendAll 0 writes
    else none

/-- The controller and the switches. -/
def system (site : Site n) : System (Net n) (Action n) where
  init net := net = .init site
  step := step site

/-- The FIFO that an action reads. -/
def Reads (site : Site n) : Action n → Option (ℤ × ℤ)
  | .switchRead k session _ =>
    ((site.cfg k).switch_sessions[session]?).map fun session =>
      (session.peer, (site.cfg k).switchID)
  | .controllerRead k _ => some ((site.cfg k).switchID, 0)
  | _ => none

/-- Where a step reads the FIFO from `a` to `b`, exactly one message is queued there. -/
def ReadsOne (site : Site n) (a b : ℤ) (net : Net n) (act : Action n) : Prop :=
  Reads site act = some (a, b) → (net.fifo a b).One nul

/-! ## Sending -/

section Send

variable {net : Net n} {a b : ℤ}

theorem setFifo_self (net : Net n) (a b : ℤ) (c : Channel Char) :
    (net.setFifo a b c).fifo a b = c :=
  if_pos ⟨rfl, rfl⟩

theorem setFifo_of_ne (net : Net n) (c : Channel Char) {x y : ℤ} (h : ¬ (x = a ∧ y = b)) :
    (net.setFifo a b c).fifo x y = net.fifo x y :=
  if_neg h

/-- A property of the channels that sending keeps. -/
theorem fifo_sendAll {P : ℤ → ℤ → Channel Char → Prop} {writes : List Sent}
    (hsend : ∀ w ∈ writes, ∀ c, P a w.dest c → P a w.dest (c.send nul w.message)) :
    ∀ {net : Net n}, (∀ x y, P x y (net.fifo x y)) →
      ∀ x y, P x y ((net.sendAll a writes).fifo x y) := by
  induction writes with
  | nil => exact fun h => h
  | cons w writes ih =>
    intro net h
    refine ih (fun w' hw' => hsend w' (List.mem_cons_of_mem _ hw')) ?_
    intro x y
    unfold Net.send
    by_cases hxy : x = a ∧ y = w.dest
    · obtain ⟨rfl, rfl⟩ := hxy
      rw [setFifo_self]
      exact hsend w List.mem_cons_self _ (h _ _)
    · rw [setFifo_of_ne _ _ hxy]
      exact h x y

@[simp] theorem ctrl_sendAll (writes : List Sent) : (net.sendAll a writes).ctrl = net.ctrl := by
  induction writes generalizing net with
  | nil => rfl
  | cons w writes ih => exact ih

@[simp] theorem sw_sendAll (writes : List Sent) : (net.sendAll a writes).sw = net.sw := by
  induction writes generalizing net with
  | nil => rfl
  | cons w writes ih => exact ih

theorem passed_sendAll (writes : List Sent) (x y : ℤ) :
    ((net.sendAll a writes).fifo x y).passed = (net.fifo x y).passed :=
  fifo_sendAll (P := fun x y c => c.passed = (net.fifo x y).passed) (fun _ _ _ hc => hc)
    (fun _ _ => rfl) x y

/-- The FIFOs of the other parties. -/
theorem fifo_sendAll_of_ne (writes : List Sent) {x : ℤ} (hx : ¬ x = a) (y : ℤ) :
    (net.sendAll a writes).fifo x y = net.fifo x y :=
  fifo_sendAll (P := fun x' y c => x' = x → c = net.fifo x' y)
    (fun _ _ _ _ heq => absurd heq.symm hx) (fun _ _ _ => rfl) x y rfl

theorem written_take (m : Text) (x y : ℤ) :
    ((net.take a b m).fifo x y).written = (net.fifo x y).written := by
  unfold Net.take
  by_cases hxy : x = a ∧ y = b
  · obtain ⟨rfl, rfl⟩ := hxy
    rw [setFifo_self]
    rfl
  · rw [setFifo_of_ne _ _ hxy]

/-- The FIFOs that go elsewhere. -/
theorem fifo_take_of_ne (m : Text) (x : ℤ) {y : ℤ} (hy : ¬ y = b) :
    (net.take a b m).fifo x y = net.fifo x y :=
  setFifo_of_ne _ _ fun h => hy h.2

end Send

end Cmput379.A2w22

import Cmput379.Lib.Decimal
import Cmput379.Transactions.Accounts

/-!
# The buffer of the transaction server

`server` reads every message into one array of 1024 characters, which is not initialised
and which `read` does not terminate, and builds its replies in the same array. Here a
step is one `accept` or one `read` on the socket in a place of `client_socket`, with what
follows it (lines 143-161 and 171-222); every order of steps is a run.

`log` and `replies` are not part of the program; they only record what happened.

* `decodes_iff`: a message is decoded as sent iff what is left behind it in the array
  has a terminator and does not go on with digits.
* `buffer_of_run`: what the replies leave there.
* `decodes_run_iff`: a whole run, in terms of the initial content and of the messages.
-/

namespace Cmput379.Transactions

open Cmput379.Lib

/-! ## The array -/

/-- `char buffer[1024]`. -/
structure Buffer where
  chars : Text
  size : chars.length = 1024

namespace Buffer

/-- `read(sd, buffer, 1024)` where it returns `text`. -/
def read (b : Buffer) (text : Text) : Buffer where
  chars := (text ++ b.chars.drop text.length).take 1024
  size := by
    rw [List.length_take, List.length_append, List.length_drop, b.size]
    omega

/-- `string recvString = buffer`; without a terminator in it, the copy runs over the end
    of the array. -/
def cstring (b : Buffer) : Option Text :=
  if '\x00' ∈ b.chars then some (b.chars.takeWhile (· ≠ '\x00')) else none

/-- `memset` and `strcpy` (lines 207-208). -/
def ofString (s : Text) : Buffer where
  chars := (s ++ List.replicate 1024 '\x00').take 1024
  size := by
    rw [List.length_take, List.length_append, List.length_replicate]
    omega

end Buffer

/-! ## The clients -/

/-- A message `hostname.pid,T<n>` that one `read` can return. -/
structure Request where
  client : Client
  n : ℤ
  comma : ',' ∉ client.hostname
  terminator : '\x00' ∉ client.hostname
  int : IsInt n
  fits : (client.message ('T' :: intText n)).length ≤ 1024

namespace Request

def text (q : Request) : Text := q.client.message ('T' :: intText q.n)

/-- The key in the message. -/
def key (q : Request) : Text := q.client.hostnamePID

end Request

/-! ## The server -/

/-- It runs; an exception has ended it; it has read over the end of the array. -/
inductive Status
  | running
  | aborted
  | overread
  deriving DecidableEq

/-- A key that has been counted, and the number of the transaction that was done. -/
structure Entry where
  key : Text
  task : Option ℤ
  deriving DecidableEq

structure Process where
  server : Server
  buffer : Buffer
  status : Status
  log : List Entry
  replies : List Text

namespace Process

/-- Before the first turn of the loop. -/
def init (b : Buffer) : Process :=
  { server := .init, buffer := b, status := .running, log := [], replies := [] }

/-- Lines 184-220, whatever is in the array. -/
def receive (p : Process) : Process :=
  match p.buffer.cstring with
  | none =>
    { p with
      server := { p.server with transactionCount := p.server.transactionCount + 1 }
      status := .overread }
  | some recvString =>
    let (server, answer) := p.server.transact recvString
    let (hostNamePID, transaction) := decode recvString
    match answer with
    | .silent => { p with server := server, log := p.log ++ [⟨hostNamePID, none⟩] }
    | .reply text =>
      { p with
        server := server
        buffer := .ofString text
        log := p.log ++ [⟨hostNamePID, stoi transaction.tail⟩]
        replies := p.replies ++ [text] }
    | .throws => { p with server := server, status := .aborted }

/-- There is a socket in place `i`. -/
def Occupied (p : Process) (i : ℕ) : Prop := p.server.clientSocket.getD i 0 ≠ 0

instance (p : Process) (i : ℕ) : Decidable (p.Occupied i) := inferInstanceAs (Decidable (_ ≠ _))

end Process

/-- A connection is accepted; the `read` on the socket in place `i` returns a message, 0
    or -1. -/
inductive ReadAction
  | accept (newSocket : ℕ)
  | message (i : ℕ) (q : Request)
  | eof (i : ℕ)
  | error (i : ℕ)

namespace Process

def step (p : Process) (a : ReadAction) : Option Process :=
  if p.status = .running then
    match a with
    | .accept newSocket =>
      if newSocket ≠ 0 ∧ newSocket ∉ p.server.clientSocket then
        some { p with
          server := { p.server with clientSocket := place newSocket p.server.clientSocket } }
      else none
    | .message i q =>
      if p.Occupied i then some { p with buffer := p.buffer.read q.text }.receive else none
    | .eof i =>
      if p.Occupied i then
        some { p with
          server := { p.server with clientSocket := p.server.clientSocket.set i 0 } }
      else none
    | .error i => if p.Occupied i then some p.receive else none
  else none

/-- The server, with the array in any state. -/
def system (b : Buffer) : System Process ReadAction where
  init p := p = init b
  step := step

end Process

/-! ## One message -/

/-- The digits behind the message in the array. -/
def Request.stale (q : Request) (b : Buffer) : Text :=
  (b.chars.drop q.text.length).takeWhile Char.isDigit

/-- A terminator follows the message, and no digits come before it, unless the number is
    0 and all of them are. -/
def Exact (b : Buffer) (q : Request) : Prop :=
  '\x00' ∈ b.chars.drop q.text.length ∧ (q.stale b = [] ∨ q.n = 0 ∧ value (q.stale b) = 0)

/-- The server counts the key of the message and does the transaction of its number. -/
def Decodes (p : Process) (i : ℕ) (q : Request) : Prop :=
  ∃ p', p.step (.message i q) = some p' ∧ p'.log = p.log ++ [⟨q.key, some q.n⟩]

section Message

variable (q : Request)

theorem terminator_not_mem_intText (x : ℤ) : '\x00' ∉ intText x := by
  intro hmem
  rcases mem_intText hmem with h | h
  · exact absurd h (by decide)
  · exact absurd h (by decide)

theorem Request.terminator_not_mem : '\x00' ∉ q.text := by
  have hdot : '\x00' ≠ '.' := by decide
  have hcomma : '\x00' ≠ ',' := by decide
  have htask : '\x00' ≠ 'T' := by decide
  simp only [Request.text, Client.message, Client.hostnamePID, List.mem_append, List.mem_cons,
    terminator_not_mem_intText, q.terminator, hdot, hcomma, htask, or_false, not_false_eq_true]

/-- What the server takes for the message: the message and what is left behind it. -/
theorem cstring_read (b : Buffer) :
    (b.read q.text).cstring =
      if '\x00' ∈ b.chars.drop q.text.length then
        some (q.text ++ (b.chars.drop q.text.length).takeWhile (· ≠ '\x00'))
      else none := by
  have hchars : (b.read q.text).chars = q.text ++ b.chars.drop q.text.length := by
    refine List.take_of_length_le ?_
    have hfits : q.text.length ≤ 1024 := q.fits
    rw [List.length_append, List.length_drop, b.size]
    omega
  have hfront : ∀ c ∈ q.text, decide (c ≠ '\x00') = true := by
    intro c hc
    rw [decide_eq_true_eq]
    rintro rfl
    exact q.terminator_not_mem hc
  unfold Buffer.cstring
  rw [hchars, List.takeWhile_append_of_pos hfront]
  simp only [List.mem_append, q.terminator_not_mem, false_or]

/-- The message with something behind it is the message with a longer number. -/
theorem Request.text_append (rest : Text) :
    q.text ++ rest = q.client.message ('T' :: (intText q.n ++ rest)) := by
  simp [Request.text, Client.message]

/-- The server's part for a message, with `rest` left behind it. -/
theorem receive_message (p : Process) {rest : Text}
    (hrest : p.buffer.cstring = some (q.text ++ rest)) :
    p.receive =
      match stoi (intText q.n ++ rest) with
      | none =>
        { p with
          server := { p.server with
            transactionCount := p.server.transactionCount + 1
            clientCompletedTasks := p.server.clientCompletedTasks.increment q.key }
          status := .aborted }
      | some v =>
        { p with
          server := { p.server with
            transactionCount := p.server.transactionCount + 1
            clientCompletedTasks := p.server.clientCompletedTasks.increment q.key }
          buffer := .ofString (intText (p.server.transactionCount + 1))
          log := p.log ++ [⟨q.key, some v⟩]
          replies := p.replies ++ [intText (p.server.transactionCount + 1)] } := by
  unfold Process.receive
  rw [hrest, Request.text_append]
  simp only [Server.transact, decode_message q.comma, List.head?_cons, List.tail_cons, if_true]
  cases stoi (intText q.n ++ rest) with
  | none => rfl
  | some v => rfl

/-- The digits behind the message are in front of the terminator. -/
theorem takeWhile_stale (s : Text) :
    (s.takeWhile (· ≠ '\x00')).takeWhile Char.isDigit = s.takeWhile Char.isDigit := by
  induction s with
  | nil => rfl
  | cons c s ih =>
    by_cases hc : c = '\x00'
    · subst hc
      rfl
    · rw [List.takeWhile_cons_of_pos (by simp [hc]), List.takeWhile_cons, List.takeWhile_cons, ih]

theorem decodes_iff {p : Process} {i : ℕ} (hrun : p.status = .running) (hi : p.Occupied i) :
    Decodes p i q ↔ Exact p.buffer q := by
  have hstep : p.step (.message i q) =
      some { p with buffer := p.buffer.read q.text }.receive := by
    unfold Process.step
    rw [if_pos hrun]
    exact if_pos hi
  have hdecodes : Decodes p i q ↔
      ({ p with buffer := p.buffer.read q.text } : Process).receive.log =
        p.log ++ [⟨q.key, some q.n⟩] := by
    unfold Decodes
    rw [hstep]
    simp
  rw [hdecodes]
  unfold Exact Request.stale
  have hcstring := cstring_read q p.buffer
  by_cases hnul : '\x00' ∈ p.buffer.chars.drop q.text.length
  · rw [if_pos hnul] at hcstring
    rw [receive_message q _ hcstring, and_iff_right hnul, ← takeWhile_stale,
      ← stoi_intText_append q.int]
    cases stoi (intText q.n ++ (p.buffer.chars.drop q.text.length).takeWhile (· ≠ '\x00')) with
    | none => simp
    | some v => simp
  · rw [if_neg hnul] at hcstring
    refine iff_of_false ?_ fun h => hnul h.1
    unfold Process.receive
    simp [hcstring]

end Message

/-! ## Runs -/

namespace ReadAction

def isMessage : ReadAction → Bool
  | .message .. => true
  | _ => false

def isError : ReadAction → Bool
  | .error .. => true
  | _ => false

end ReadAction

/-- The number of messages that have been read. -/
def messages (tr : List (Process × ReadAction)) : ℕ := tr.countP fun x => x.2.isMessage

/-- What is in the array after `k` messages that have been answered: the initial content,
    or the digits of the last reply, with zeros behind them. -/
def Buffer.after (b : Buffer) (k : ℕ) : Buffer := if k = 0 then b else .ofString (intText k)

section Run

variable {b : Buffer} {p p' : Process} {a : ReadAction} {tr : List (Process × ReadAction)}

theorem Process.step_accept {newSocket : ℕ} (h : p.step (.accept newSocket) = some p') :
    p' = { p with
      server := { p.server with clientSocket := place newSocket p.server.clientSocket } } := by
  simp only [Process.step] at h
  split_ifs at h
  exact (Option.some.inj h).symm

theorem Process.step_message {i : ℕ} {q : Request} (h : p.step (.message i q) = some p') :
    p.status = .running ∧ p.Occupied i ∧
      p' = { p with buffer := p.buffer.read q.text }.receive := by
  simp only [Process.step] at h
  split_ifs at h with hrun hi
  exact ⟨hrun, hi, (Option.some.inj h).symm⟩

theorem Process.step_eof {i : ℕ} (h : p.step (.eof i) = some p') :
    p' = { p with
      server := { p.server with clientSocket := p.server.clientSocket.set i 0 } } := by
  simp only [Process.step] at h
  split_ifs at h
  exact (Option.some.inj h).symm

theorem Process.step_error {i : ℕ} (h : p.step (.error i) = some p') : p' = p.receive := by
  simp only [Process.step] at h
  split_ifs at h
  exact (Option.some.inj h).symm

/-- A message that is decoded as sent leaves its reply in the array. -/
theorem receive_exact {q : Request} (h : Exact p.buffer q) :
    ({ p with buffer := p.buffer.read q.text } : Process).receive =
      { p with
        server := { p.server with
          transactionCount := p.server.transactionCount + 1
          clientCompletedTasks := p.server.clientCompletedTasks.increment q.key }
        buffer := .ofString (intText (p.server.transactionCount + 1))
        log := p.log ++ [⟨q.key, some q.n⟩]
        replies := p.replies ++ [intText (p.server.transactionCount + 1)] } := by
  obtain ⟨hnul, hstale⟩ := h
  have hcstring := cstring_read q p.buffer
  rw [if_pos hnul] at hcstring
  rw [Request.stale, ← takeWhile_stale] at hstale
  rw [receive_message q _ hcstring, (stoi_intText_append q.int _).mpr hstale]

/-- In front of a reply, a message that does not fill the array, and that covers the
    digits of the reply, is exact. -/
theorem exact_ofString {k : ℤ} {q : Request} (hlength : (intText k).length ≤ q.text.length)
    (hroom : q.text.length < 1024) : Exact (.ofString (intText k)) q := by
  have hdrop : (Buffer.ofString (intText k)).chars.drop q.text.length =
      List.replicate (1024 - q.text.length) '\x00' := by
    simp only [Buffer.ofString, List.drop_take, List.drop_append, List.drop_of_length_le hlength,
      List.nil_append, List.drop_replicate, List.take_replicate]
    congr 1
    omega
  unfold Exact Request.stale
  rw [hdrop]
  refine ⟨List.mem_replicate.mpr ⟨by omega, rfl⟩, .inl ?_⟩
  obtain ⟨n, hn⟩ : ∃ n, 1024 - q.text.length = n + 1 := ⟨1023 - q.text.length, by omega⟩
  rw [hn, List.replicate_succ]
  rfl

/-- As long as every message is decoded as sent, the array holds the last reply. -/
theorem buffer_of_run (h : (Process.system b).Run (.init b) tr p)
    (hreads : ∀ x ∈ tr, x.2.isError = false)
    (hexact : ∀ x ∈ tr, ∀ i q, x.2 = .message i q → Exact x.1.buffer q) :
    p.buffer = b.after (messages tr) ∧ p.server.transactionCount = messages tr := by
  induction h with
  | nil => exact ⟨rfl, rfl⟩
  | @snoc tr u v a hrun hstep ih =>
    obtain ⟨hbuffer, hcount⟩ := ih (fun x hx => hreads x (List.mem_append_left _ hx))
      (fun x hx => hexact x (List.mem_append_left _ hx))
    have hlast := hreads (u, a) (by simp)
    have hmessages : messages (tr ++ [(u, a)]) =
        messages tr + if a.isMessage = true then 1 else 0 := by
      unfold messages
      rw [List.countP_append, List.countP_singleton]
    rw [hmessages]
    cases a with
    | accept newSocket =>
      obtain rfl := Process.step_accept hstep
      exact ⟨hbuffer, hcount⟩
    | message i q =>
      obtain ⟨-, -, rfl⟩ := Process.step_message hstep
      rw [receive_exact (hexact (u, .message i q) (by simp) i q rfl), hcount]
      exact ⟨rfl, rfl⟩
    | eof i =>
      obtain rfl := Process.step_eof hstep
      exact ⟨hbuffer, hcount⟩
    | error i => cases hlast

/-- Where each message meets its condition in front of what the replies before it leave,
    it meets it where it is read. -/
theorem exact_of_run (h : (Process.system b).Run (.init b) tr p)
    (hreads : ∀ x ∈ tr, x.2.isError = false)
    (hexact : ∀ front x rest i q, tr = front ++ x :: rest → x.2 = .message i q →
      Exact (b.after (messages front)) q) :
    ∀ x ∈ tr, ∀ i q, x.2 = .message i q → Exact x.1.buffer q := by
  induction h with
  | nil => exact fun x hx => absurd hx List.not_mem_nil
  | @snoc tr u v a hrun hstep ih =>
    have hfront := ih (fun x hx => hreads x (List.mem_append_left _ hx)) (by
      rintro front x rest i q rfl hx
      exact hexact front x (rest ++ [(u, a)]) i q (by simp) hx)
    intro x hx i q hq
    rcases List.mem_append.mp hx with hx | hx
    · exact hfront x hx i q hq
    · obtain rfl := List.mem_singleton.mp hx
      obtain ⟨hbuffer, -⟩ :=
        buffer_of_run hrun (fun x hx => hreads x (List.mem_append_left _ hx)) hfront
      rw [hbuffer]
      exact hexact tr (u, a) [] i q rfl hq

/-- In every run without failing reads: all messages are decoded as sent iff each of them
    is exact in front of what the replies before it, or else the initial content, leave. -/
theorem decodes_run_iff (h : (Process.system b).Run (.init b) tr p)
    (hreads : ∀ x ∈ tr, x.2.isError = false) :
    (∀ x ∈ tr, ∀ i q, x.2 = .message i q → Decodes x.1 i q) ↔
      ∀ front x rest i q, tr = front ++ x :: rest → x.2 = .message i q →
        Exact (b.after (messages front)) q := by
  have hiff : ∀ x ∈ tr, ∀ i q, x.2 = .message i q → (Decodes x.1 i q ↔ Exact x.1.buffer q) := by
    intro x hx i q hq
    obtain ⟨tr', u, -, hstep⟩ := h.of_mem hx
    rw [hq] at hstep
    obtain ⟨hrun, hi, -⟩ := Process.step_message hstep
    exact decodes_iff q hrun hi
  constructor
  · rintro hdecodes front x rest i q rfl hq
    have hexact : ∀ x' ∈ front, ∀ i q, x'.2 = .message i q → Exact x'.1.buffer q := by
      intro x' hx' i q hq
      have hmem : x' ∈ front ++ x :: rest := List.mem_append_left _ hx'
      exact (hiff x' hmem i q hq).mp (hdecodes x' hmem i q hq)
    have hx : x ∈ front ++ x :: rest := by simp
    obtain ⟨hbuffer, -⟩ :=
      buffer_of_run h.of_append (fun x' hx' => hreads x' (List.mem_append_left _ hx')) hexact
    rw [← hbuffer]
    exact (hiff x hx i q hq).mp (hdecodes x hx i q hq)
  · intro hexact x hx i q hq
    exact (hiff x hx i q hq).mpr (exact_of_run h hreads hexact x hx i q hq)

end Run

/-! ## One client -/

instance (b : Buffer) (q : Request) : Decidable (Exact b q) :=
  inferInstanceAs (Decidable (_ ∧ (_ ∨ _ ∧ _)))

theorem request_ui : '\x00' ∉ "ui".toList ∧ IsInt 5 ∧
    ((⟨"ui".toList, 1⟩ : Client).message ('T' :: intText 5)).length ≤ 1024 := by decide

/-- `ui.1,T5`. -/
def firstRequest : Request where
  client := ⟨"ui".toList, 1⟩
  n := 5
  comma := comma_not_mem_ui
  terminator := request_ui.1
  int := request_ui.2.1
  fits := request_ui.2.2

theorem request_lab : (',' ∉ "lab".toList ∧ '\x00' ∉ "lab".toList) ∧ IsInt 370 ∧
    ((⟨"lab".toList, 22⟩ : Client).message ('T' :: intText 370)).length ≤ 1024 := by decide

/-- `lab.22,T370`. -/
def secondRequest : Request where
  client := ⟨"lab".toList, 22⟩
  n := 370
  comma := request_lab.1.1
  terminator := request_lab.1.2
  int := request_lab.2.1
  fits := request_lab.2.2

/-- The client connects and sends. -/
def oneMessage : List ReadAction := [.accept 4, .message 0 firstRequest]

/-- Another one does so too; the first one leaves, and comes back. -/
def manyMessages : List ReadAction :=
  oneMessage ++ [.accept 5, .message 1 secondRequest, .message 1 secondRequest, .eof 0, .accept 4,
    .message 0 firstRequest]

/-- After each reply a shorter text is in the array. -/
theorem decodes_run_iff_manyMessages : ∃ p,
    (Process.system (.ofString [])).exec (.init (.ofString [])) manyMessages = some p ∧
      p.log = [⟨"ui.1".toList, some 5⟩, ⟨"lab.22".toList, some 370⟩,
        ⟨"lab.22".toList, some 370⟩, ⟨"ui.1".toList, some 5⟩] ∧
      ∀ x ∈ (Process.system (.ofString [])).trace (.init (.ofString [])) manyMessages,
        ∀ i q, x.2 = .message i q → Decodes x.1 i q := by
  have hrun : ((Process.system (.ofString [])).exec (.init (.ofString [])) manyMessages).map
      (fun p => decide (p.log = [⟨"ui.1".toList, some 5⟩, ⟨"lab.22".toList, some 370⟩,
        ⟨"lab.22".toList, some 370⟩, ⟨"ui.1".toList, some 5⟩])) = some true := by
    decide +kernel
  have hreads : ∀ x ∈ (Process.system (.ofString [])).trace (.init (.ofString [])) manyMessages,
      x.2.isError = false := by
    decide +kernel
  have hcount : messages ((Process.system (.ofString [])).trace (.init (.ofString []))
      manyMessages) = 4 := by
    decide +kernel
  have hexact : ∀ k < 5, Exact (Buffer.after (.ofString []) k) firstRequest ∧
      Exact (Buffer.after (.ofString []) k) secondRequest := by
    decide +kernel
  obtain ⟨p, hexec, hlog⟩ := System.exists_of_exec hrun
  refine ⟨p, hexec, hlog, (decodes_run_iff (System.Run.of_exec hexec) hreads).mpr ?_⟩
  intro front x rest i q htr hq
  have hmem : x ∈ (Process.system (.ofString [])).trace (.init (.ofString [])) manyMessages := by
    rw [htr]
    exact List.mem_append_right _ List.mem_cons_self
  have hx : x.2 ∈ manyMessages := System.mem_of_mem_trace hmem
  have hfront : messages front < 5 := by
    rw [htr, messages, List.countP_append] at hcount
    exact Nat.lt_succ_of_le (hcount ▸ Nat.le_add_right _ _)
  rw [hq] at hx
  simp only [manyMessages, oneMessage, List.cons_append, List.nil_append, List.mem_cons,
    reduceCtorEq, ReadAction.message.injEq, List.not_mem_nil, or_false, false_or] at hx
  rcases hx with ⟨-, rfl⟩ | ⟨-, rfl⟩ | ⟨-, rfl⟩ | ⟨-, rfl⟩
  · exact (hexact _ hfront).1
  · exact (hexact _ hfront).2
  · exact (hexact _ hfront).2
  · exact (hexact _ hfront).1

/-- The array begins with eight ones: `T5` is taken for `T51`. -/
theorem decodes_counterexample : ∃ b tr p, (Process.system b).Run (.init b) tr p ∧
    (∀ x ∈ tr, x.2.isError = false) ∧
      ¬ ∀ x ∈ tr, ∀ i q, x.2 = .message i q → Decodes x.1 i q := by
  let b := (Buffer.ofString []).read (List.replicate 8 '1')
  let p : Process := { Process.init b with
    server := { Server.init with clientSocket := place 4 Server.init.clientSocket } }
  have haccept : (Process.system b).step (.init b) (.accept 4) = some p := rfl
  have hmessage : (Process.system b).step p (.message 0 firstRequest) =
      some { p with buffer := p.buffer.read firstRequest.text }.receive := rfl
  refine ⟨b, _, _, (System.Run.nil.snoc haccept).snoc hmessage, by simp [ReadAction.isError], ?_⟩
  intro h
  have hdecodes := h (p, .message 0 firstRequest) (by simp) 0 firstRequest rfl
  have hexact := (decodes_iff firstRequest rfl (by decide)).mp hdecodes
  exact absurd hexact (by decide +kernel)

end Cmput379.Transactions

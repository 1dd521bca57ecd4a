import Mathlib.Data.List.Forall2
import Cmput379.Lib.Words
import Cmput379.Msh379.Check

/-!
# The rows of ps

What `getParent` of `Assignment_1/msh379.cpp` makes of the text that `ps` prints: a header
and a line for each process, in columns with blanks between them.

* `processBuffer_eq`: the tokens of a buffer go to the fields by their position.
* `tokens_text`: the tokens of a line with its newline, column by column.
* `rowOf_iff`: a line that is read as a whole gives its row iff its sixth token is the
  first word of its command.
* `getParent_iff`: there is one row per line, with the fields of the line, iff the header
  and all lines fit into the buffer and that is so for each line.
-/

namespace Cmput379.Msh379

open Cmput379.Lib

/-- The words between the blanks. -/
def tokens (s : Text) : List Text := pieces (· == ' ') s

/-! ## Lines of ps -/

/-- Text inside a line. -/
def InLine (t : Text) : Prop := '\n' ∉ t ∧ '\x00' ∉ t

instance (t : Text) : Decidable (InLine t) := inferInstanceAs (Decidable (_ ∧ _))

/-- What stands in a column of one word. -/
structure IsWord (t : Text) : Prop where
  ne_nil : t ≠ []
  no_blank : ' ' ∉ t
  inLine : InLine t

instance (t : Text) : Decidable (IsWord t) :=
  decidable_of_iff (t ≠ [] ∧ ' ' ∉ t ∧ InLine t)
    ⟨fun h => ⟨h.1, h.2.1, h.2.2⟩, fun h => ⟨h.1, h.2, h.3⟩⟩

/-- The columns that `ps -o user,pid,ppid,state,start,cmd` prints for a process. The start
    column of an older process is a date, and has a blank in it; `padding i` blanks stand
    in front of column `i` besides the one that separates it. -/
structure PsLine where
  user : Text
  pid : Text
  ppid : Text
  state : Text
  start : Text
  command : Text
  padding : ℕ → ℕ
  words : IsWord user ∧ IsWord pid ∧ IsWord ppid ∧ IsWord state
  inLine : InLine start ∧ InLine command
  filled : tokens start ≠ [] ∧ tokens command ≠ []

/-- A padded column, and the rest of the line. -/
def column (padding : ℕ) (t rest : Text) : Text := List.replicate padding ' ' ++ t ++ ' ' :: rest

/-- The line without its newline. -/
def PsLine.text (l : PsLine) : Text :=
  column (l.padding 0) l.user <| column (l.padding 1) l.pid <| column (l.padding 2) l.ppid <|
    column (l.padding 3) l.state <| column (l.padding 4) l.start l.command

/-- The command without its arguments. -/
def PsLine.commandWord (l : PsLine) : Text := (tokens l.command).headD []

/-- All that `ps` prints. -/
structure PsOutput where
  header : Text
  lines : List PsLine
  inLine : InLine header

def PsOutput.text (o : PsOutput) : Text := frames '\n' (o.header :: o.lines.map PsLine.text)

/-- `r` is the row of a line. -/
structure RowOf (l : PsLine) (r : Parent) : Prop where
  pid : r.pid = l.pid
  ppid : r.ppid = l.ppid
  state : r.state = l.state
  cmd : r.cmd = l.commandWord

/-- A row for the header, and then one for each line. -/
def OneRowPerLine (rows : List Parent) (lines : List PsLine) : Prop :=
  ∃ header rest, rows = header :: rest ∧ List.Forall₂ RowOf lines rest

/-- The sixth token of the line is the first word of its command: start is one word and
    the command goes on with a blank, or the second word of start happens to be it. -/
def PsLine.CmdIsSixth (l : PsLine) : Prop :=
  (tokens l.start).length = 1 ∧ ' ' ∈ l.command.dropWhile (· == ' ') ∨
    (tokens l.start)[1]? = some l.commandWord

/-! ## processBuffer -/

namespace Parent

variable {i : ℕ}

theorem setTokens_filter (newParent : Parent) (i : ℕ) (ts : List Text) :
    newParent.setTokens i ts = newParent.setTokens i (ts.filter (· ≠ [])) := by
  induction ts generalizing newParent i with
  | nil => rfl
  | cons token ts ih =>
    by_cases htoken : token = []
    · rw [List.filter_cons_of_neg (by simpa using htoken), ← ih, setTokens, if_pos htoken]
    · rw [List.filter_cons_of_pos (by simpa using htoken), setTokens, setTokens, if_neg htoken,
        if_neg htoken, ih]

theorem setTokens_cons {token : Text} (htoken : token ≠ []) (newParent : Parent)
    (ts : List Text) :
    newParent.setTokens i (token :: ts) = (newParent.setToken i token).setTokens (i + 1) ts := by
  rw [setTokens, if_neg htoken]

/-- From the seventh token on all go to `others`. -/
theorem setTokens_others (hi : 6 ≤ i) (newParent : Parent) (ts : List Text) :
    newParent.setTokens i ts = { newParent with others := newParent.others ++ ts.flatten } := by
  induction ts generalizing newParent i with
  | nil => simp [setTokens]
  | cons token ts ih =>
    by_cases htoken : token = []
    · rw [setTokens, if_pos htoken, ih hi, htoken, List.flatten_cons, List.nil_append]
    · obtain ⟨k, rfl⟩ : ∃ k, i = k + 6 := ⟨i - 6, by omega⟩
      rw [setTokens_cons htoken, ih (by omega)]
      simp [setToken]

end Parent

theorem ne_nil_of_mem_tokens {s t : Text} (h : t ∈ tokens s) : t ≠ [] := by
  simpa using (List.mem_filter.mp h).2

theorem processBuffer_eq {buffer user pid ppid state start cmd : Text} {rest : List Text}
    (h : tokens buffer = user :: pid :: ppid :: state :: start :: cmd :: rest) :
    processBuffer buffer =
      { user := user, pid := pid, ppid := ppid, state := state, start := start, cmd := cmd,
        others := rest.flatten } := by
  have hne : ∀ t ∈ user :: pid :: ppid :: state :: start :: cmd :: rest, t ≠ [] :=
    fun t ht => ne_nil_of_mem_tokens (h ▸ ht)
  simp only [List.forall_mem_cons] at hne
  obtain ⟨huser, hpid, hppid, hstate, hstart, hcmd, -⟩ := hne
  unfold processBuffer
  rw [Parent.setTokens_filter]
  show Parent.new.setTokens 0 (tokens buffer) = _
  rw [h, Parent.setTokens_cons huser, Parent.setTokens_cons hpid, Parent.setTokens_cons hppid,
    Parent.setTokens_cons hstate, Parent.setTokens_cons hstart, Parent.setTokens_cons hcmd,
    Parent.setTokens_others (by omega)]
  simp [Parent.setToken, Parent.new]

/-! ## The tokens of a line -/

theorem tokens_word {t : Text} (h : IsWord t) : tokens t = [t] := by
  refine pieces_word h.ne_nil fun c hc => ?_
  rw [beq_eq_false_iff_ne]
  rintro rfl
  exact h.no_blank hc

theorem tokens_column (padding : ℕ) (t rest : Text) :
    tokens (column padding t rest) = tokens t ++ tokens rest := by
  unfold column tokens
  rw [pieces_append_sep (by simp)]
  congr 1
  induction padding with
  | zero => rfl
  | succ padding ih => rw [List.replicate_succ, List.cons_append, pieces_cons_sep (by simp), ih]

theorem column_append (padding : ℕ) (t rest s : Text) :
    column padding t rest ++ s = column padding t (rest ++ s) := by
  simp [column]

theorem tokens_text (l : PsLine) :
    tokens (l.text ++ ['\n']) = l.user :: l.pid :: l.ppid :: l.state ::
      (tokens l.start ++ tokens (l.command ++ ['\n'])) := by
  obtain ⟨huser, hpid, hppid, hstate⟩ := l.words
  unfold PsLine.text
  simp only [column_append, tokens_column, tokens_word huser, tokens_word hpid,
    tokens_word hppid, tokens_word hstate, List.singleton_append]

/-- The newline is part of the first word when no blank follows that. -/
theorem tokens_newline {s : Text} (h : tokens s ≠ []) :
    ∃ rest, tokens (s ++ ['\n']) =
      (if ' ' ∈ s.dropWhile (· == ' ') then (tokens s).headD [] else (tokens s).headD [] ++ ['\n'])
        :: rest := by
  obtain ⟨w, tail, hdrop, hne, hw, htail⟩ := pieces_first h
  have hblank : ' ' ∉ w := fun hmem => by simpa using hw ' ' hmem
  have hfirst : tokens s = w :: tokens tail := by
    unfold tokens
    rw [← pieces_dropWhile, hdrop, pieces_word_append hne hw htail]
  have hdrop' : (s ++ ['\n']).dropWhile (· == ' ') = w ++ (tail ++ ['\n']) := by
    rw [List.dropWhile_append, hdrop, if_neg (by simp [hne]), List.append_assoc]
  have htokens : tokens (s ++ ['\n']) = pieces (· == ' ') (w ++ (tail ++ ['\n'])) := by
    rw [← hdrop', pieces_dropWhile]
    rfl
  rw [htokens, hfirst, hdrop, List.headD_cons]
  cases tail with
  | nil =>
    have hnot : ' ' ∉ w ++ [] := by rwa [List.append_nil]
    rw [if_neg hnot]
    refine ⟨[], pieces_word (by simp) fun c hc => ?_⟩
    rcases List.mem_append.mp hc with hc | hc
    · exact hw c hc
    · rw [List.nil_append, List.mem_singleton] at hc
      subst hc
      rfl
  | cons c tail =>
    obtain rfl : c = ' ' := by simpa using htail c rfl
    rw [if_pos (by simp)]
    exact ⟨_, pieces_word_append hne hw fun c hc => by simpa using hc.symm⟩

/-! ## A line that fits -/

/-- The sixth token of a line. -/
theorem processBuffer_text (l : PsLine) :
    (processBuffer (l.text ++ ['\n'])).pid = l.pid ∧
      (processBuffer (l.text ++ ['\n'])).ppid = l.ppid ∧
      (processBuffer (l.text ++ ['\n'])).state = l.state ∧
      some (processBuffer (l.text ++ ['\n'])).cmd =
        (tokens l.start ++ tokens (l.command ++ ['\n']))[1]? := by
  obtain ⟨word, rest, hcommand⟩ :
      ∃ word rest, tokens (l.command ++ ['\n']) = word :: rest := by
    obtain ⟨rest, hrest⟩ := tokens_newline l.filled.2
    exact ⟨_, rest, hrest⟩
  obtain ⟨first, more, hstart⟩ := List.exists_cons_of_ne_nil l.filled.1
  have htokens := tokens_text l
  rw [hstart, hcommand] at htokens ⊢
  cases more with
  | nil => simp [processBuffer_eq htokens]
  | cons second more => simp [processBuffer_eq htokens]

theorem rowOf_iff (l : PsLine) :
    RowOf l (processBuffer (l.text ++ ['\n'])) ↔ l.CmdIsSixth := by
  obtain ⟨hpid, hppid, hstate, hcmd⟩ := processBuffer_text l
  have hrow : RowOf l (processBuffer (l.text ++ ['\n'])) ↔
      (tokens l.start ++ tokens (l.command ++ ['\n']))[1]? = some l.commandWord := by
    rw [← hcmd, Option.some_inj]
    exact ⟨RowOf.cmd, fun heq => ⟨hpid, hppid, hstate, heq⟩⟩
  rw [hrow]
  obtain ⟨rest, hcommand⟩ := tokens_newline l.filled.2
  obtain ⟨first, more, hstart⟩ := List.exists_cons_of_ne_nil l.filled.1
  unfold PsLine.CmdIsSixth PsLine.commandWord
  rw [hcommand, hstart]
  cases more with
  | nil => by_cases hblank : ' ' ∈ l.command.dropWhile (· == ' ') <;> simp [hblank]
  | cons second more => simp

/-! ## All lines -/

theorem not_mem_column {c : Char} {t rest : Text} (hc : c ≠ ' ') (ht : c ∉ t) (hrest : c ∉ rest)
    (padding : ℕ) : c ∉ column padding t rest := by
  unfold column
  simp [hc, ht, hrest]

theorem not_mem_text (l : PsLine) {c : Char} (hc : c = '\n' ∨ c = '\x00') : c ∉ l.text := by
  have hblank : c ≠ ' ' := by
    rcases hc with rfl | rfl <;> decide
  have hnot : ∀ {t}, InLine t → c ∉ t := by
    intro t ht
    rcases hc with rfl | rfl
    · exact ht.1
    · exact ht.2
  obtain ⟨huser, hpid, hppid, hstate⟩ := l.words
  exact not_mem_column hblank (hnot huser.inLine) (not_mem_column hblank (hnot hpid.inLine)
    (not_mem_column hblank (hnot hppid.inLine) (not_mem_column hblank (hnot hstate.inLine)
      (not_mem_column hblank (hnot l.inLine.1) (hnot l.inLine.2) _) _) _) _) _

theorem PsOutput.no_newline (o : PsOutput) :
    ∀ t ∈ o.header :: o.lines.map PsLine.text, '\n' ∉ t := by
  rw [List.forall_mem_cons, List.forall_mem_map]
  exact ⟨o.inLine.1, fun l _ => not_mem_text l (.inl rfl)⟩

/-- The rows, when all lines fit into the buffer. -/
theorem getParent_of_fits {o : PsOutput}
    (h : ∀ t ∈ o.header :: o.lines.map PsLine.text, t.length ≤ 254) :
    getParent (some o.text) = processBuffer (o.header ++ ['\n']) ::
      o.lines.map fun l => processBuffer (l.text ++ ['\n']) := by
  have hcString : ∀ {t : Text}, '\x00' ∉ t → cString (t ++ ['\n']) = t ++ ['\n'] :=
    fun ht => cString_of_not_mem (by simp [ht])
  show (fgetsAll 255 _).map _ = _
  rw [PsOutput.text, fgetsAll_frames o.no_newline h, List.map_map, List.map_cons, List.map_map]
  congr 1
  · exact congrArg processBuffer (hcString o.inLine.2)
  · exact List.map_congr_left fun l _ =>
      congrArg processBuffer (hcString (not_mem_text l (.inr rfl)))

/-- There are as many rows as lines only when all of them fit. -/
theorem fits_of_length {o : PsOutput}
    (h : (getParent (some o.text)).length = o.lines.length + 1) :
    ∀ t ∈ o.header :: o.lines.map PsLine.text, t.length ≤ 254 := by
  refine (length_fgetsAll_frames o.no_newline).2 ?_
  rw [List.length_cons, List.length_map, ← h]
  exact (List.length_map _).symm

theorem OneRowPerLine.length_eq {rows : List Parent} {lines : List PsLine}
    (h : OneRowPerLine rows lines) : rows.length = lines.length + 1 := by
  obtain ⟨header, rest, rfl, hrows⟩ := h
  rw [List.length_cons, hrows.length_eq]

/-- One row per line, with the fields of the line: exactly when the header and all lines
    fit into the buffer with their newlines, and the sixth token of each line is the first
    word of its command. -/
theorem getParent_iff (o : PsOutput) :
    OneRowPerLine (getParent (some o.text)) o.lines ↔
      o.header.length ≤ 254 ∧ ∀ l ∈ o.lines, l.text.length ≤ 254 ∧ l.CmdIsSixth := by
  have hfits : (∀ t ∈ o.header :: o.lines.map PsLine.text, t.length ≤ 254) ↔
      o.header.length ≤ 254 ∧ ∀ l ∈ o.lines, l.text.length ≤ 254 := by
    rw [List.forall_mem_cons, List.forall_mem_map]
  have hrows : List.Forall₂ RowOf o.lines
      (o.lines.map fun l => processBuffer (l.text ++ ['\n'])) ↔ ∀ l ∈ o.lines, l.CmdIsSixth := by
    rw [List.forall₂_map_right_iff, List.forall₂_same]
    exact forall₂_congr fun l _ => rowOf_iff l
  constructor
  · intro h
    have hlen := fits_of_length h.length_eq
    obtain ⟨header, rest, hcons, h⟩ := h
    rw [getParent_of_fits hlen, List.cons.injEq] at hcons
    obtain ⟨-, rfl⟩ := hcons
    rw [hfits] at hlen
    exact ⟨hlen.1, fun l hl => ⟨hlen.2 l hl, hrows.mp h l hl⟩⟩
  · rintro ⟨hheader, hlines⟩
    have hlen := hfits.mpr ⟨hheader, fun l hl => (hlines l hl).1⟩
    exact ⟨_, _, getParent_of_fits hlen, hrows.mpr fun l hl => (hlines l hl).2⟩

/-- Process 7 runs `sleep` with two long arguments. The buffer is full at the end of the
    first one, and the second one reads like the line of a process 8 that 7 has started. -/
def forged : PsOutput where
  header := "USER         PID    PPID S  STARTED CMD".toList
  lines :=
    [{  user := ['u']
        pid := ['7']
        ppid := ['2']
        state := ['S']
        start := "10:00:00".toList
        command := "sleep ".toList ++ List.replicate 213 '1' ++ " u 8 7 S 10:00:00 sh x".toList
        padding := fun i => [0, 13, 6].getD i 0
        words := by decide
        inLine := by decide
        filled := by decide }]
  inLine := by decide

theorem getParent_counterexample :
    (getParent (some forged.text)).map Parent.pid = ["PID".toList, ['7'], ['8']] ∧
      ¬ OneRowPerLine (getParent (some forged.text)) forged.lines := by
  have hpids : (getParent (some forged.text)).map Parent.pid =
      ["PID".toList, ['7'], ['8']] := by decide +kernel
  refine ⟨hpids, fun h => ?_⟩
  have hlen := congrArg List.length hpids
  rw [List.length_map, h.length_eq] at hlen
  exact absurd hlen (by decide)

end Cmput379.Msh379

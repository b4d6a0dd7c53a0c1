/-
Module: Reckoner.Proofs.Token.Sharing
Layer: Proofs
Purpose: Scanners that report to one common list. Whatever the schedule is by which they are asked,
  each of them hands out the tokens of its own line in order, and then its end token again and
  again; and the common list grows by what the tokens report that are handed out, in the order in
  which they are. What a scanner has handed out and what is still ahead of it always make up the
  scan of its line, which one step keeps and so every schedule does.
Main exports: Token.complaint?, Scanner.Serves, Bench.handed, Bench.afterAll, Bench.Served,
  Bench.Served.perform, Bench.served_afterAll, Bench.handed_prefix_scan
-/
import Reckoner.Proofs.Token.Partition
import Reckoner.Token.Sharing

namespace Reckoner

open Text

/-!
### One scanner
-/

/-- The message about a token of a line, if there is anything wrong with it: it is a bad character,
    which is named, or a number without a value, for which the whole line is quoted. -/
def Token.complaint? (line : String) (token : Token) : Option String :=
  if token.kind = .bad then some s!"ERR: bad character input: '{token.text}'"
  else if token.kind = .number ∧ token.value = none then some s!"{line} isn't valid Int32."
  else none

theorem Token.filterMap_complaint?_replicate (line : String) (count : Nat) (position : Int) :
    (List.replicate count (finish position)).filterMap (complaint? line) = [] := by
  rw [List.filterMap_eq_nil_iff]
  intro token hmem
  rw [List.eq_of_mem_replicate hmem]
  rfl

namespace Scanner

/-- What a scanner reports for a token is worded as the message about it. -/
theorem map_message_reportsOf (line : String) (token : Token) :
    (reportsOf line token).map Report.message = (token.complaint? line).toList := by
  unfold reportsOf Token.complaint?
  cases token.kind with
  | number =>
      cases token.value with
      | none => rfl
      | some value => rfl
  | bad => rfl
  | _ => rfl

/-- A scanner is at work on a line of which it has handed out some tokens: with those still ahead of
    it they are the tokens of the line and perhaps some more end tokens. -/
structure Serves (line : String) (handed : List Token) (s : Scanner) : Prop where
  line_eq : s.line = line
  ahead : ∃ count, handed ++ s.tokens.tokens =
    Token.scan line ++ List.replicate count (Token.finish line.length)

/-- A scanner at the start of a line has handed out nothing. -/
theorem serves_ofLine (line : String) : (ofLine line).Serves line [] :=
  ⟨rfl, 0, by simp [Token.scan]⟩

/-- A scanner at the end of its line that has handed out all tokens has its end token left, again and
    again. -/
theorem serves_of_exhausted {line : String} {handed : List Token} {position count : Nat}
    (hposition : Token.finish position = Token.finish line.length)
    (hhanded : handed = Token.scan line ++ List.replicate count (Token.finish line.length)) :
    (⟨line, position, []⟩ : Scanner).Serves line handed := by
  refine ⟨rfl, count + 1, ?_⟩
  rw [tokens_nil, hhanded, hposition, List.replicate_succ', List.append_assoc]

/-- The last token ahead of a scanner is the end token, at the place where a scan leaves it. -/
theorem getLast?_tokens (s : Scanner) :
    s.tokens.tokens.getLast? = some (Token.finish s.tokens.last.position) := by
  obtain ⟨front, htokens, -⟩ := (partition_tokens s.line s.position s.rest).exists_append_finish
  rw [last_tokens s.line s.position s.rest, htokens, List.getLast?_append]
  rfl

theorem reports_next (s : Scanner) : s.next.reports = reportsOf s.line s.next.token := by
  obtain ⟨line, position, rest⟩ := s
  cases rest with
  | nil => rfl
  | cons c text => rfl

namespace Serves

variable {line : String} {handed : List Token} {s : Scanner}

/-- What has been handed out is the beginning of the tokens of the line and further end tokens. -/
theorem handed_prefix (h : s.Serves line handed) :
    ∃ count, handed <+: Token.scan line ++ List.replicate count (Token.finish line.length) := by
  obtain ⟨count, hahead⟩ := h.ahead
  exact ⟨count, s.tokens.tokens, hahead⟩

/-- The end token ahead of the scanner is that of the line. -/
theorem finish_eq (h : s.Serves line handed) :
    Token.finish s.tokens.last.position = Token.finish line.length := by
  obtain ⟨count, hahead⟩ := h.ahead
  have hlast := congrArg List.getLast? hahead
  have hscan : (Token.scan line).getLast? = some (Token.finish line.length) := by
    have hend := getLast?_tokens (ofLine line)
    rw [ofLine, position_last, Nat.zero_add, String.length_toList] at hend
    exact hend
  rw [List.getLast?_append, List.getLast?_append, getLast?_tokens, hscan,
    List.getLast?_replicate] at hlast
  by_cases hcount : count = 0
  · simpa [hcount] using hlast
  · simpa [hcount] using hlast

theorem next (h : s.Serves line handed) : s.next.next.Serves line (handed ++ [s.next.token]) := by
  have hfinish := h.finish_eq
  obtain ⟨rfl, count, hahead⟩ := h
  obtain ⟨line, position, rest⟩ := s
  cases rest with
  | nil =>
      rw [tokens_nil] at hahead hfinish
      exact serves_of_exhausted hfinish hahead
  | cons c text =>
      refine ⟨rfl, count, ?_⟩
      rw [tokens_cons] at hahead
      rw [List.append_assoc]
      exact hahead

/-- Asked for all the rest, the scanner hands out the rest. -/
theorem tokens (h : s.Serves line handed) :
    s.tokens.last.Serves line (handed ++ s.tokens.tokens) := by
  have hfinish := h.finish_eq
  obtain ⟨rfl, count, hahead⟩ := h
  obtain ⟨line, position, rest⟩ := s
  rw [last_tokens] at hfinish ⊢
  exact serves_of_exhausted hfinish hahead

end Serves

end Scanner

/-!
### Schedules
-/

namespace Bench

def Answer.scanned : Answer → List Token
  | token one => [one]
  | tokens all => all
  | reports _ => []

/-- The tokens that are handed out by a schedule in the order in which they are, each with the
    scanner that it comes from, given the answers to the requests of the schedule. -/
def handed (schedule : List (Nat × Request)) (answers : List (Answer × Nat)) : List (Nat × Token) :=
  (schedule.zip answers).flatMap fun (step, answer) => answer.1.scanned.map (Prod.mk step.1)

/-- Those of the tokens that one scanner has handed out. -/
def share (index : Nat) (handed : List (Nat × Token)) : List Token :=
  (handed.filter fun one => one.1 = index).map Prod.snd

/-- The bench behind a schedule. -/
def afterAll (b : Bench) : List (Nat × Request) → Bench
  | [] => b
  | (index, request) :: schedule =>
      match b.perform index request with
      | none => b
      | some (_, next) => next.afterAll schedule

/-- What is reported for the tokens handed out by scanners of some lines. -/
def reportsFor (lines : List String) (handed : List (Nat × Token)) : List Report :=
  handed.flatMap fun one => (lines[one.1]?).elim [] fun line => Scanner.reportsOf line one.2

/-- Scanners of some lines that write to one list are at work: each on its line, and the list holds
    what it held at first and then what the tokens report that have been handed out. -/
structure Served (lines : List String) (initial : List Report) (handed : List (Nat × Token))
    (b : Bench) : Prop where
  shared : b.shared = true
  length_eq : b.scanners.length = lines.length
  serves : ∀ (index : Nat) (s : Scanner) (line : String), b.scanners[index]? = some s →
    lines[index]? = some line → s.Serves line (share index handed)
  common_eq : b.common = initial ++ reportsFor lines handed

theorem share_append_map (index other : Nat) (handed : List (Nat × Token)) (tokens : List Token) :
    share index (handed ++ tokens.map (Prod.mk other)) =
      share index handed ++ if other = index then tokens else [] := by
  simp only [share, List.filter_append, List.map_append, List.filter_map, Function.comp_def,
    List.map_map]
  split
  · next heq => simp [heq]
  · next hne => simp [hne]

theorem reportsFor_append (lines : List String) (handed others : List (Nat × Token)) :
    reportsFor lines (handed ++ others) = reportsFor lines handed ++ reportsFor lines others :=
  List.flatMap_append

theorem reportsFor_map {lines : List String} {index : Nat} {line : String}
    (hline : lines[index]? = some line) (tokens : List Token) :
    reportsFor lines (tokens.map (Prod.mk index)) = tokens.flatMap (Scanner.reportsOf line) := by
  rw [reportsFor, List.flatMap_map]
  simp only [hline, Option.elim_some]

theorem served_ofLines (lines : List String) (initial : List Report) :
    Served lines initial [] (ofLines lines true initial) := by
  refine ⟨rfl, by simp [ofLines], ?_, by simp [ofLines, reportsFor]⟩
  intro index s line hs hline
  rw [ofLines, List.getElem?_map, hline, Option.map_some, Option.some.injEq] at hs
  subst hs
  exact Scanner.serves_ofLine line

namespace Served

variable {lines : List String} {initial : List Report} {handed : List (Nat × Token)} {b : Bench}

/-- Putting a scanner back that has handed out some tokens and has reported for them keeps all
    scanners at work. -/
theorem settle (h : Served lines initial handed b) {index : Nat} {s : Scanner} {line : String}
    {tokens : List Token} {made : List Report} (hline : lines[index]? = some line)
    (hserves : s.Serves line (share index handed ++ tokens))
    (hmade : made = tokens.flatMap (Scanner.reportsOf line)) :
    Served lines initial (handed ++ tokens.map (Prod.mk index)) (b.settle index s made) := by
  refine ⟨h.shared, ?_, ?_, ?_⟩
  · rw [Bench.settle, List.length_set, h.length_eq]
  · intro other t another ht hanother
    rw [Bench.settle, List.getElem?_set] at ht
    rw [share_append_map]
    by_cases hsame : index = other
    · subst hsame
      obtain rfl : line = another := Option.some.inj (hline.symm.trans hanother)
      rw [if_pos rfl] at ht ⊢
      split at ht
      · obtain rfl := Option.some.inj ht
        exact hserves
      · exact absurd ht (by simp)
    · rw [if_neg hsame] at ht ⊢
      rw [List.append_nil]
      exact h.serves other t another ht hanother
  · rw [Bench.settle, h.shared, if_pos rfl, h.common_eq, reportsFor_append, reportsFor_map hline,
      hmade, List.append_assoc]

/-- A request to one scanner hands out tokens of its line, and nothing happens to the others. -/
theorem perform (h : Served lines initial handed b) {index : Nat} (hindex : index < lines.length)
    (request : Request) :
    ∃ answer next, b.perform index request = some (answer, next) ∧
      Served lines initial (handed ++ answer.scanned.map (Prod.mk index)) next := by
  have hline : lines[index]? = some lines[index] := List.getElem?_eq_getElem hindex
  rw [← h.length_eq] at hindex
  have hs : b.scanners[index]? = some b.scanners[index] := List.getElem?_eq_getElem hindex
  have hserves := h.serves index _ _ hs hline
  rw [Bench.perform, hs]
  cases request with
  | next =>
      refine ⟨_, _, rfl, h.settle hline hserves.next ?_⟩
      rw [Answer.scanned, List.flatMap_singleton, ← hserves.line_eq, Scanner.reports_next]
  | tokens =>
      refine ⟨_, _, rfl, h.settle hline hserves.tokens ?_⟩
      rw [← hserves.line_eq]
      exact Scanner.reports_tokens _ _ _
  | reports =>
      refine ⟨_, _, rfl, ?_⟩
      simpa [Answer.scanned] using h

end Served

/-- Every schedule of requests to scanners that there are is answered to its end, and keeps the
    scanners at work. -/
theorem served_afterAll {lines : List String} {initial : List Report} {before : List (Nat × Token)}
    {b : Bench} (h : Served lines initial before b) {schedule : List (Nat × Request)}
    (hschedule : ∀ step ∈ schedule, step.1 < lines.length) :
    (b.performAll schedule).length = schedule.length ∧
      Served lines initial (before ++ handed schedule (b.performAll schedule))
        (b.afterAll schedule) := by
  induction schedule generalizing before b with
  | nil =>
      rw [afterAll]
      exact ⟨rfl, by simpa [handed] using h⟩
  | cons step schedule ih =>
      obtain ⟨index, request⟩ := step
      obtain ⟨hindex, hothers⟩ := List.forall_mem_cons.mp hschedule
      obtain ⟨answer, next, hperform, hnext⟩ := h.perform hindex request
      obtain ⟨hlength, hserved⟩ := ih hnext hothers
      rw [performAll, afterAll, hperform]
      refine ⟨by simpa using hlength, ?_⟩
      simpa [handed, List.append_assoc] using hserved

/-- The messages about tokens handed out by scanners of some lines, in the order in which the tokens
    are handed out. -/
def messagesFor (lines : List String) (handed : List (Nat × Token)) : List String :=
  handed.filterMap fun one => (lines[one.1]?).bind fun line => one.2.complaint? line

theorem map_message_reportsFor (lines : List String) (handed : List (Nat × Token)) :
    (reportsFor lines handed).map Report.message = messagesFor lines handed := by
  induction handed with
  | nil => rfl
  | cons one handed ih =>
      rw [reportsFor, List.flatMap_cons, List.map_append, ← reportsFor, ih, messagesFor, messagesFor]
      cases hline : lines[one.1]? with
      | none => simp [hline]
      | some line =>
          rw [Option.elim_some, Scanner.map_message_reportsOf]
          cases hcomplaint : one.2.complaint? line with
          | none => simp [hline, hcomplaint]
          | some message => simp [hline, hcomplaint]

/-- Scanners that write to one list do not disturb one another, whatever the schedule: every request
    is answered; what a scanner hands out is the beginning of the tokens of its line and then its
    end token again and again; the list holds what it held at first and behind it the messages about
    all tokens handed out, in the order in which they are; and so the messages of one scanner are
    the first ones about its line, in their order. -/
theorem handed_prefix_scan (lines : List String) (initial : List Report)
    (schedule : List (Nat × Request)) (hschedule : ∀ step ∈ schedule, step.1 < lines.length) :
    let start := ofLines lines true initial
    let answers := start.performAll schedule
    let tokens := handed schedule answers
    answers.length = schedule.length ∧
      (start.afterAll schedule).common.map Report.message =
        initial.map Report.message ++ messagesFor lines tokens ∧
      ∀ (index : Nat) (line : String), lines[index]? = some line →
        (∃ count, share index tokens <+:
          Token.scan line ++ List.replicate count (Token.finish line.length)) ∧
        (share index tokens).filterMap (Token.complaint? line) <+:
          (Token.scan line).filterMap (Token.complaint? line) := by
  intro start answers tokens
  obtain ⟨hlength, hserved⟩ := served_afterAll (served_ofLines lines initial) hschedule
  rw [List.nil_append] at hserved
  refine ⟨hlength, ?_, ?_⟩
  · rw [hserved.common_eq, List.map_append, map_message_reportsFor]
  · intro index line hline
    obtain ⟨hindex, -⟩ := List.getElem?_eq_some_iff.mp hline
    rw [← hserved.length_eq] at hindex
    have hserves := hserved.serves index _ line (List.getElem?_eq_getElem hindex) hline
    obtain ⟨count, hprefix⟩ := hserves.handed_prefix
    refine ⟨⟨count, hprefix⟩, ?_⟩
    have hmessages := hprefix.filterMap (Token.complaint? line)
    rwa [List.filterMap_append, Token.filterMap_complaint?_replicate, List.append_nil] at hmessages

/-- Two scanners in turn, the first of which is asked on demand and then for its rest. -/
theorem handed_prefix_scan_two :
    let lines := ["1 ?", "99999999999"]
    let schedule : List (Nat × Request) := [(0, .next), (1, .tokens), (0, .tokens), (1, .next)]
    let start := ofLines lines true [.verbatim "noted"]
    (∀ step ∈ schedule, step.1 < lines.length) ∧
      (start.afterAll schedule).common.map Report.message =
        ["noted", "99999999999 isn't valid Int32.", "ERR: bad character input: '?'"] := by
  intro lines schedule start
  have hschedule : ∀ step ∈ schedule, step.1 < lines.length := by decide
  have hmessages : messagesFor lines (handed schedule (start.performAll schedule)) =
      ["99999999999 isn't valid Int32.", "ERR: bad character input: '?'"] := by decide +kernel
  obtain ⟨-, hcommon, -⟩ := handed_prefix_scan lines [.verbatim "noted"] schedule hschedule
  refine ⟨hschedule, ?_⟩
  rw [hcommon, hmessages]
  rfl

end Bench

end Reckoner

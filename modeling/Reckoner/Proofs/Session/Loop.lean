/-
Module: Reckoner.Proofs.Session.Loop
Layer: Proofs
Purpose: The read loop pass by pass. A pass asks for a line with the prompt; a line that comes is
  answered and the loop goes on, and at the end of the input it stops. That asking does not fail is
  assumed of the reader, and if it fails the loop stops there; no line makes the loop stop, whatever
  it holds. However many lines are served, the loop reads all of them and asks once more. Nothing
  but whether trees are shown is carried from one line to the next, and that is as at the start or
  not according to the number of commands read before.
Main exports: Session.toggles, Session.shownAfter, Session.Reader.Serves, Session.Loop.Served,
  Session.Loop.Served.pass, Session.Loop.served_after, Session.Loop.after_served,
  Session.Loop.after_failed, Session.loop_reads_to_end
-/
import Reckoner.Proofs.Session.Report

namespace Reckoner.Session

/-!
### Whether trees are shown
-/

/-- The number of commands among some lines. -/
def toggles (lines : List String) : Nat :=
  lines.countP fun line => Toggles line

/-- Whether trees are shown when some lines have been read: every command turns it over. -/
def shownAfter (shown : Bool) (lines : List String) : Bool :=
  if toggles lines % 2 = 0 then shown else !shown

@[simp] theorem shownAfter_nil (shown : Bool) : shownAfter shown [] = shown := rfl

theorem shownAfter_concat (shown : Bool) (lines : List String) (line : String) :
    shownAfter shown (lines ++ [line]) = shownBehind (shownAfter shown lines) line := by
  by_cases htoggles : Toggles line
  · have hcount : toggles (lines ++ [line]) = toggles lines + 1 := by
      simp [toggles, htoggles]
    rw [shownAfter, shownAfter, shownBehind, if_pos htoggles, hcount]
    rcases Nat.mod_two_eq_zero_or_one (toggles lines) with heven | hodd
    · rw [if_neg (by omega), if_pos heven]
    · rw [if_pos (by omega), if_neg (by omega), Bool.not_not]
  · have hcount : toggles (lines ++ [line]) = toggles lines := by
      simp [toggles, htoggles]
    rw [shownAfter, shownAfter, shownBehind, if_neg htoggles, hcount]

/-!
### Passes
-/

/-- Asked with the prompt, the reader gives some lines one after the other, whatever comes then. -/
def Reader.Gives (reader : Reader) (prompt : String) (lines : List String) : Prop :=
  ∀ (place : Nat) (line : String), lines[place]? = some line → reader place prompt = .line line

/-- Asked with the prompt, the reader gives some lines and then the end of the input. In particular
    asking does not fail. -/
structure Reader.Serves (reader : Reader) (prompt : String) (lines : List String) : Prop where
  gives : reader.Gives prompt lines
  ends : reader lines.length prompt = .ended

theorem Reader.serves_ofLines (prompt : String) (lines : List String) :
    (Reader.ofLines lines).Serves prompt lines where
  gives place line hline := by rw [ofLines, hline]
  ends := by rw [ofLines, List.getElem?_eq_none (Nat.le_refl _)]

variable {settings : Settings} {reader : Reader} {lines : List String}

namespace Loop

/-- The loop has read a number of lines. It goes on, trees are shown according to the commands so
    far, and there is a turn for every line, in which the line has been answered. -/
structure Served (settings : Settings) (lines : List String) (count : Nat) (loop : Loop) :
    Prop where
  goesOn : loop.status = .reading
  shown : loop.shown = shownAfter settings.showTree (lines.take count)
  length : loop.turns.length = count
  answered : ∀ (place : Nat) (line : String), place < count → lines[place]? = some line →
    ∃ prints, loop.turns[place]? = some ⟨settings.prompt, prints⟩ ∧
      Answered settings (shownAfter settings.showTree (lines.take place)) line prints

theorem served_start (settings : Settings) (lines : List String) :
    Served settings lines 0 (start settings) where
  goesOn := rfl
  shown := rfl
  length := rfl
  answered _ _ hplace _ := absurd hplace (Nat.not_lt_zero _)

/-- A pass over a line answers it, and then one line more has been read. -/
theorem Served.pass {count : Nat} {loop : Loop} (h : Served settings lines count loop)
    (hgives : reader.Gives settings.prompt lines) (hcount : count < lines.length) :
    Served settings lines (count + 1) (loop.pass settings reader) := by
  have hline : lines[count]? = some lines[count] := List.getElem?_eq_getElem hcount
  obtain ⟨prints, hanswer, hprints⟩ := exists_answer settings
    (shownAfter settings.showTree (lines.take count)) lines[count]
  have hpass : loop.pass settings reader =
      ⟨shownBehind (shownAfter settings.showTree (lines.take count)) lines[count],
        loop.turns ++ [⟨settings.prompt, prints⟩], .reading⟩ := by
    simp only [Loop.pass, h.goesOn, h.length, hgives _ _ hline, next, h.shown, hanswer]
  have hlast : ∀ turn, (loop.turns ++ [turn])[count]? = some turn := fun turn => by
    rw [← h.length, List.getElem?_concat_length]
  rw [hpass]
  refine ⟨rfl, ?_, by simp [h.length], fun place line hplace hplaced => ?_⟩
  · rw [List.take_succ_eq_append_getElem hcount, shownAfter_concat]
  · rcases Nat.lt_succ_iff_lt_or_eq.mp hplace with hbefore | rfl
    · rw [List.getElem?_append_left (h.length.symm ▸ hbefore)]
      exact h.answered place line hbefore hplaced
    · cases hline.symm.trans hplaced
      exact ⟨prints, hlast _, hprints⟩

/-- As many passes as there are lines read them all. The induction is on the passes. -/
theorem served_after (h : reader.Gives settings.prompt lines) {count : Nat}
    (hcount : count ≤ lines.length) :
    Served settings lines count (after settings reader count) := by
  induction count with
  | zero => exact served_start settings lines
  | succ count ih => exact (ih (Nat.le_of_lt hcount)).pass h hcount

/-- All turns of a loop that has read some lines start with the prompt. -/
theorem Served.turns_eq {count : Nat} {loop : Loop} (h : Served settings lines count loop)
    (hcount : count ≤ lines.length) :
    loop.turns = (loop.turns.map Turn.prints).map (Turn.mk settings.prompt) := by
  refine List.ext_getElem? fun place => ?_
  rw [List.getElem?_map, List.getElem?_map]
  by_cases hplace : place < count
  · have hline : lines[place]? = some lines[place] :=
      List.getElem?_eq_getElem (Nat.lt_of_lt_of_le hplace hcount)
    obtain ⟨prints, hturn, -⟩ := h.answered place _ hplace hline
    rw [hturn]
    rfl
  · rw [List.getElem?_eq_none (h.length ▸ Nat.le_of_not_lt hplace)]
    rfl

/-- The pass behind the last line asks once more and ends the loop. -/
theorem after_served (h : reader.Serves settings.prompt lines) :
    after settings reader (lines.length + 1) =
      ⟨shownAfter settings.showTree lines,
        (after settings reader lines.length).turns ++ [⟨settings.prompt, [⟨"", none⟩]⟩], .ended⟩ := by
  have hserved := served_after h.gives (Nat.le_refl _)
  have hshown := hserved.shown
  rw [List.take_length] at hshown
  simp only [after, Loop.pass, hserved.goesOn, hserved.length, h.ends, next, hshown]

/-- If asking for a line fails the loop stops there. The lines before have been answered. -/
theorem after_failed (h : reader.Gives settings.prompt lines) {fault : Console.Fault}
    (hfailed : reader lines.length settings.prompt = .failed fault) :
    after settings reader (lines.length + 1) =
      { after settings reader lines.length with status := .unread fault } := by
  have hserved := served_after h (Nat.le_refl _)
  simp only [after, Loop.pass, hserved.goesOn, hserved.length, hfailed, next]

theorem pass_of_stopped {loop : Loop} (h : loop.status ≠ .reading) :
    loop.pass settings reader = loop := by
  unfold Loop.pass
  split
  · next hreading => exact absurd hreading h
  · rfl

theorem after_of_stopped {count : Nat} (h : (after settings reader count).status ≠ .reading)
    (further : Nat) : after settings reader (count + further) = after settings reader count := by
  induction further with
  | zero => rfl
  | succ further ih => rw [← Nat.add_assoc, after, ih, pass_of_stopped h]

end Loop

/-!
### Whole sessions
-/

/-- Served by a reader that gives some lines and then the end of the input, asking with the prompt
    never failing, the loop reads every line and stops at the end only. As long as there are lines it
    goes on, whatever they hold, and after so many passes so many lines have been read and answered,
    each asked for with the prompt of the settings; the pass after the last line asks once more and
    ends the loop, and further passes change nothing. What is printed for a line answers it, given
    whether trees are shown: as the settings say, turned over by every command before. In another
    session with these settings the same line has the same prints if the numbers of commands before
    it are both even or both odd, whatever the other lines are. -/
theorem loop_reads_to_end (settings : Settings) {lines : List String} {reader : Reader}
    (h : reader.Serves settings.prompt lines) :
    (∀ count ≤ lines.length, Loop.Served settings lines count (.after settings reader count)) ∧
      (∀ further, Loop.after settings reader (lines.length + 1 + further) =
        ⟨shownAfter settings.showTree lines,
          (Loop.after settings reader lines.length).turns ++ [⟨settings.prompt, [⟨"", none⟩]⟩],
          .ended⟩) ∧
      ∀ place line, lines[place]? = some line →
        ∃ prints, Answered settings (shownAfter settings.showTree (lines.take place)) line prints ∧
          ∀ (others : List String) (another : Reader), another.Serves settings.prompt others →
            ∀ elsewhere, others[elsewhere]? = some line →
              toggles (others.take elsewhere) % 2 = toggles (lines.take place) % 2 →
              (Loop.after settings another (others.length + 1)).turns[elsewhere]? =
                some ⟨settings.prompt, prints⟩ := by
  refine ⟨fun count hcount => Loop.served_after h.gives hcount, fun further => ?_,
    fun place line hline => ?_⟩
  · have hended := Loop.after_served h
    have hstopped : (Loop.after settings reader (lines.length + 1)).status ≠ .reading := by
      rw [hended]
      exact fun hreading => by cases hreading
    rw [Loop.after_of_stopped hstopped, hended]
  · obtain ⟨prints, -, hprints⟩ := exists_answer settings
      (shownAfter settings.showTree (lines.take place)) line
    refine ⟨prints, hprints, fun others another hserves elsewhere helsewhere hparity => ?_⟩
    have hlt : elsewhere < others.length := (List.getElem?_eq_some_iff.mp helsewhere).1
    have hserved := Loop.served_after hserves.gives (Nat.le_refl _)
    obtain ⟨same, hturn, hsame⟩ := hserved.answered elsewhere line hlt helsewhere
    have hshown : shownAfter settings.showTree (others.take elsewhere) =
        shownAfter settings.showTree (lines.take place) := by
      rw [shownAfter, shownAfter, hparity]
    rw [hshown] at hsame
    rw [Loop.after_served hserves, List.getElem?_append_left (hserved.length.symm ▸ hlt), hturn,
      hprints.unique hsame]

/-- Behind the command a line that divides by zero is answered with its tree and the division. -/
theorem loop_reads_to_end_division :
    (Reader.ofLines ["#showTree", "7 / 0"]).Serves Settings.standard.prompt
        ["#showTree", "7 / 0"] ∧
      ∃ prints, Answered .standard true "7 / 0" prints ∧
        (Loop.after .standard (.ofLines ["#showTree", "7 / 0"]) 3).turns[1]? =
          some ⟨"> ", prints⟩ := by
  have hserves := Reader.serves_ofLines Settings.standard.prompt ["#showTree", "7 / 0"]
  have hshown : shownAfter Settings.standard.showTree (["#showTree", "7 / 0"].take 1) = true := by
    decide +kernel
  obtain ⟨-, -, hlines⟩ := loop_reads_to_end .standard hserves
  obtain ⟨prints, hanswered, hturn⟩ := hlines 1 "7 / 0" rfl
  rw [hshown] at hanswered
  exact ⟨hserves, prints, hanswered, hturn _ _ hserves 1 rfl rfl⟩

end Reckoner.Session

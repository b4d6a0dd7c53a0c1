/-
Module: Reckoner.Proofs.Terminal.Prompt
Layer: Proofs
Purpose: Prompts that a terminal can ask with. Tags stand in brackets, so that a text without an
  opening bracket has no markup: it is one piece, which is shown as any text is and then broken into
  the lines of the terminal. Asking with such a prompt never fails, whatever else it holds.
Main exports: Markup.pieces_of_no_bracket, Markup.read_of_no_bracket, Terminal.ask_of_no_bracket
-/
import Reckoner.Terminal.Markup

namespace Reckoner

namespace Markup

/-- Behind shown text and backslashes, a text without an opening bracket is more shown text. -/
theorem piecesBehind_of_no_bracket {text : List Char} (h : '[' ∉ text) (plain : List Char)
    (slashes : Nat) :
    piecesBehind plain slashes text =
      [.shown (plain.reverse ++ List.replicate slashes '\\' ++ text)] := by
  induction text generalizing plain slashes with
  | nil => rw [piecesBehind, List.append_nil]
  | cons c text ih =>
      rw [List.mem_cons, not_or] at h
      by_cases hslash : c = '\\'
      · subst hslash
        rw [piecesBehind, ih h.2, List.replicate_succ']
        simp
      · rw [piecesBehind, ih h.2]
        · simp
        · exact hslash
        · exact fun hbracket => h.1 hbracket.symm

theorem pieces_of_no_bracket {text : List Char} (h : '[' ∉ text) : pieces text = [.shown text] :=
  piecesBehind_of_no_bracket h [] 0

variable (terminal : Terminal)

theorem read_of_no_bracket {text : List Char} (h : '[' ∉ text) :
    read terminal text =
      .ok ⟨Terminal.withoutActing (Emoji.replace terminal.pictographs text), []⟩ := by
  simp only [read, pieces_of_no_bracket h, spansFrom, List.map_nil, Except.map,
    List.flatMap_cons, List.flatMap_nil, List.append_nil, Piece.shownText]

end Markup

namespace Terminal

/-- With a prompt without an opening bracket a terminal can ask. It shows the prompt as it shows any
    text, broken into its lines. -/
theorem ask_of_no_bracket (terminal : Terminal) {prompt : String} (h : '[' ∉ prompt.toList) :
    terminal.ask prompt = .ok (String.ofList (List.intercalate ['\n']
      ((linesOf (withoutActing (Emoji.replace terminal.pictographs prompt.toList))).flatMap
        (wrap terminal.columns)))) := by
  rw [ask, Markup.read_of_no_bracket terminal h]
  rfl

/-- With an opening bracket it may fail. -/
example : ({ takesCodes := false } : Terminal).ask "[/]" = .error .markup := by
  cbv

end Terminal

end Reckoner

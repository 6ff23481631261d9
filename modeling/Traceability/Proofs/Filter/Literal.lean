import Traceability.Proofs.Filter.Acceptance
import Traceability.Proofs.Filter.Scanning

/-!
Texts as they are written in filters: between quotes, with a backslash before each quote of that
kind and each backslash, and with line feeds written as `\n`. Each text can be written in this
way, with either kind of quotes, and what is written is one token with that text.
-/

namespace Traceability.Filter

/-- A character of a text as it stands between quotes. -/
def escaped (quote c : Char) : List Char :=
  if c = '\n' then ['\\', 'n'] else if c = '\\' ∨ c = quote then ['\\', c] else [c]

def literal (quote : Char) (text : String) : String :=
  String.ofList (quote :: (text.toList.flatMap (escaped quote) ++ [quote]))

section Reading

variable {quote : Char}

theorem readText_escape (h : quote ≠ '\\') (e : Char) (rest : List Char) :
    readText quote ('\\' :: e :: rest) =
      (readText quote rest).map fun (v, n) => (unescaped e :: v, n + 2) := by
  rw [readText.eq_def]
  simp [h.symm]

theorem readText_plain {c : Char} (hquote : c ≠ quote) (hescape : c ≠ '\\') (hfeed : c ≠ '\n')
    (rest : List Char) :
    readText quote (c :: rest) = (readText quote rest).map fun (v, n) => (c :: v, n + 1) := by
  rw [readText.eq_def]
  simp [hquote, hescape, hfeed]

/-- What is written for a text is read back up to the closing quote. -/
theorem readText_escaped (hquote : quote = '\'' ∨ quote = '"') (text : List Char) :
    readText quote (text.flatMap (escaped quote) ++ [quote]) =
      some (text, (text.flatMap (escaped quote)).length + 1) := by
  have hescape : quote ≠ '\\' := by
    rcases hquote with rfl | rfl <;> decide
  induction text with
  | nil => simp [readText]
  | cons c text ih =>
    rw [List.flatMap_cons, List.append_assoc, escaped]
    by_cases hfeed : c = '\n'
    · rw [if_pos hfeed, List.cons_append, List.singleton_append, readText_escape hescape, ih, hfeed]
      simp [unescaped]
    · rw [if_neg hfeed]
      by_cases hspecial : c = '\\' ∨ c = quote
      · have hself : unescaped c = c := by
          rcases hspecial with rfl | rfl
          · rfl
          · rcases hquote with rfl | rfl <;> rfl
        rw [if_pos hspecial, List.cons_append, List.singleton_append, readText_escape hescape, ih,
          Option.map_some, hself]
        simp
      · obtain ⟨hbackslash, hclose⟩ := not_or.mp hspecial
        rw [if_neg hspecial, List.singleton_append, readText_plain hclose hbackslash hfeed, ih]
        simp

end Reading

section Scanning

variable {quote : Char} (hquote : quote = '\'' ∨ quote = '"') (text : String)
include hquote

theorem scan_literal (offset : Nat) :
    scan offset (literal quote text).toList =
      .ok [⟨.text text, offset, (literal quote text).toList⟩] := by
  have hmark : (quote == '\'' || quote == '"') = true := by simpa using hquote
  have hseparator : isSeparator quote = false := by
    rcases hquote with rfl | rfl <;> rfl
  have hnext : nextToken quote (text.toList.flatMap (escaped quote) ++ [quote]) =
      .ok (.text text, (text.toList.flatMap (escaped quote) ++ [quote]).length) := by
    rw [nextToken_eq_ok_iff, tokenAt_of_quote hmark, readText_escaped hquote, List.drop_length]
    simp [checkApart]
  rw [literal, String.toList_ofList,
    scan_token hseparator (isBlank_of_quote hmark) hnext, List.take_length, List.drop_length,
    scan_nil]
  rfl

/-- The filter that asks for a tag. -/
theorem parse_tagged :
    Expression.parse ("tag == " ++ literal quote text) =
      .ok ⟨"tag == " ++ literal quote text, ⟨.identifier "tag", .sign .eq, .text text⟩, []⟩ := by
  have hfront : scan 0 "tag ==".toList =
      .ok [⟨.identifier "tag", 0, ['t', 'a', 'g']⟩, ⟨.sign .eq, 4, ['=', '=']⟩] :=
    tokenize_eq_ok (by decide +kernel)
  have hblank : ∀ b ∈ (' ' :: (literal quote text).toList).head?, Text.isBlank b = true := by
    intro b hb
    cases hb
    rfl
  have hsplit : ("tag == " ++ literal quote text).toList =
      "tag ==".toList ++ ' ' :: (literal quote text).toList := by
    rw [String.toList_append]
    rfl
  have htokens : tokenize ("tag == " ++ literal quote text).toList =
      .ok [⟨.identifier "tag", 0, ['t', 'a', 'g']⟩, ⟨.sign .eq, 4, ['=', '=']⟩,
        ⟨.text text, 7, (literal quote text).toList⟩] := by
    rw [hsplit, tokenize, scan_append_of_ok hblank hfront, scan_blank rfl rfl, scan_literal hquote]
    rfl
  exact parse_eq_ok_iff.mpr ⟨rfl, _, htokens, rfl⟩

end Scanning

end Traceability.Filter

import JointSpend.Text.CaseTable

set_option autoImplicit false
set_option relaxedAutoImplicit false

/-!
# Lowercasing

Text is lowered character by character by the simple mapping, with two exceptions: the dotted
capital I becomes a small i and a combining dot, and a capital sigma that ends a word becomes the
final small sigma.

## Main definitions

* `JointSpend.Text.lowercase` — the lowercase form of a text.
-/

namespace JointSpend.Text

/-- Whether a code point lies in one of the ranges. -/
def inRanges (ranges : List (Nat × Nat)) (c : Nat) : Bool :=
  ranges.any fun r => r.1 ≤ c && c ≤ r.2

/-- The small letter of a capital letter; any other character is left as it is. -/
def lowercaseChar (c : Char) : Char :=
  let n := c.toNat
  match CaseTable.lowercase.find? fun r => r.1 ≤ n && n ≤ r.2.1 && (n - r.1) % r.2.2.1 == 0 with
  | some (first, _, _, small) => Char.ofNat (small + (n - first))
  | none => c

/-- Whether the first character that is not transparent is a letter. -/
def meetsLetter (cs : List Char) : Bool :=
  match cs.dropWhile fun c => inRanges CaseTable.transparent c.toNat with
  | [] => false
  | c :: _ => inRanges CaseTable.letters c.toNat

/-- Lowers the characters that follow `before`, which is given last first. -/
def lowercaseFrom (before : List Char) : List Char → List Char
  | [] => []
  | c :: rest =>
    let lowered :=
      if c = 'Σ' then
        if meetsLetter before && !meetsLetter rest then ['ς'] else ['σ']
      else if c = 'İ' then ['i', '\u0307']
      else [lowercaseChar c]
    lowered ++ lowercaseFrom (c :: before) rest

/-- The lowercase form of a text. -/
def lowercase (s : String) : String :=
  String.ofList (lowercaseFrom [] s.toList)

end JointSpend.Text

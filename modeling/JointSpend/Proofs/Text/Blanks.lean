import JointSpend.Proofs.Text.Utf8
import JointSpend.Text.Blank

set_option autoImplicit false
set_option relaxedAutoImplicit false

/-!
# Blanks in a text

The blanks of base64 text are dropped from its bytes before anything else is read. None of them is a
part of another character, so this is the same as dropping them from the text, and it undoes any way
of putting them in.

## Main definitions

* `JointSpend.Text.isBlankChar`, `JointSpend.Text.withoutBlanks` — blanks as characters, and a text
  without them.
* `JointSpend.Text.Spaced` — a row of symbols, and the same row with blanks put in.

## Main results

* `JointSpend.Text.utf8_withoutBlanks` — dropping blanks from a text and from its bytes.
* `JointSpend.Text.Spaced.filter_eq` — blanks that were put in are dropped again.
-/

namespace JointSpend.Text

/-- Space, tab, line feed, form feed and carriage return, as characters. -/
def isBlankChar (c : Char) : Bool :=
  c == ' ' || c == '\t' || c == '\n' || c == '\x0c' || c == '\r'

/-- A text without its blanks. -/
def withoutBlanks (s : String) : String :=
  String.ofList (s.toList.filter (! isBlankChar ·))

/-! ## Characters and bytes -/

/-- The bytes that are blank, by value. -/
theorem isAsciiBlank_iff {b : UInt8} : isAsciiBlank b = true ↔
    b.toNat = 32 ∨ b.toNat = 9 ∨ b.toNat = 10 ∨ b.toNat = 12 ∨ b.toNat = 13 := by
  simp only [isAsciiBlank, Bool.or_eq_true, beq_iff_eq, ← UInt8.toNat_inj, UInt8.reduceToNat,
    or_assoc]

/-- The characters that are blank, by value. -/
private theorem isBlankChar_iff {c : Char} : isBlankChar c = true ↔
    c.val.toNat = 32 ∨ c.val.toNat = 9 ∨ c.val.toNat = 10 ∨ c.val.toNat = 12 ∨
      c.val.toNat = 13 := by
  simp only [isBlankChar, Bool.or_eq_true, beq_iff_eq, Char.ext_iff, ← UInt32.toNat_inj, or_assoc]
  rfl

/-- **The bytes of a character are blank** exactly when the character is. -/
theorem isAsciiBlank_of_mem_utf8EncodeChar {b : UInt8} {c : Char}
    (h : b ∈ String.utf8EncodeChar c) : isAsciiBlank b = isBlankChar c := by
  rw [Bool.eq_iff_iff, isAsciiBlank_iff, isBlankChar_iff]
  rw [String.utf8EncodeChar] at h
  -- the bytes of a longer form are all above 127, and so is the value of the character
  split_ifs at h <;>
    simp only [List.mem_cons, List.not_mem_nil, or_false, ← UInt8.toNat_inj,
      UInt8.toNat_ofNat'] at h <;> omega

/-- **Blanks may be dropped** from a text or from its bytes. -/
theorem utf8_withoutBlanks (s : String) :
    utf8 (withoutBlanks s) = (utf8 s).filter (! isAsciiBlank ·) := by
  have hchar : ∀ c, (String.utf8EncodeChar c).filter (! isAsciiBlank ·) =
      if isBlankChar c then [] else String.utf8EncodeChar c := by
    intro c
    cases hc : isBlankChar c with
    | true =>
      apply List.filter_eq_nil_iff.mpr
      intro b hb
      simp [isAsciiBlank_of_mem_utf8EncodeChar hb, hc]
    | false =>
      apply List.filter_eq_self.mpr
      intro b hb
      simp [isAsciiBlank_of_mem_utf8EncodeChar hb, hc]
  rw [utf8, utf8, withoutBlanks, String.toList_ofList]
  induction s.toList with
  | nil => rfl
  | cons c cs ih =>
    rw [List.flatMap_cons, List.filter_append, hchar, ← ih]
    cases hc : isBlankChar c with
    | true => simp [hc]
    | false => simp [hc]

/-- A text is determined by its bytes. -/
theorem utf8_injective {s t : String} (h : utf8 s = utf8 t) : s = t := by
  have hs := ofUtf8?_eq_some_iff.mpr (rfl : utf8 s = utf8 s)
  rw [h, ofUtf8?_eq_some_iff.mpr rfl] at hs
  exact (Option.some.inj hs).symm

/-! ## Putting blanks in -/

/-- A row of symbols, and the same row with blanks put in, anywhere and as many as one likes. -/
inductive Spaced {α : Type} (blank : α → Bool) : List α → List α → Prop
  | nil : Spaced blank [] []
  | keep {s t : List α} (a : α) : Spaced blank s t → Spaced blank (a :: s) (a :: t)
  | putIn {s t : List α} {a : α} : blank a = true → Spaced blank s t → Spaced blank s (a :: t)

namespace Spaced

variable {α : Type} {blank : α → Bool} {s t : List α}

/-- Nothing has to be put in. -/
theorem refl (s : List α) : Spaced blank s s := by
  induction s with
  | nil => exact nil
  | cons a s ih => exact keep a ih

/-- **Blanks that were put in are dropped again.** -/
theorem filter_eq (h : Spaced blank s t) : t.filter (! blank ·) = s.filter (! blank ·) := by
  induction h with
  | nil => rfl
  | keep a _ ih => rw [List.filter_cons, List.filter_cons, ih]
  | putIn ha _ ih => rw [List.filter_cons_of_neg (by simp [ha]), ih]

end Spaced

end JointSpend.Text

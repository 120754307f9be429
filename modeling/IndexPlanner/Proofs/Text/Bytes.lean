import IndexPlanner.Checksum
import IndexPlanner.Text.Order
import Mathlib.Data.List.Lex

/-!
# The order of texts is the order of their bytes

Texts are compared by code points.  Written in UTF-8 they can as well be compared byte by
byte, for a greater code point never has a lesser first byte, and where the first bytes are
the same the bytes that follow decide in the same way.

* `Text.BytesBefore` is the order of the bytes of two texts.
* `CodeBytes` says what the bytes of a code point are, and `CodeBytes.lex` that the lesser one
  of two code points has the lesser bytes, whatever follows them.
* `Text.before_iff_bytesBefore`: the two orders are one.
-/

namespace IndexPlanner

/-- One list of bytes comes before another one: at the first place where they differ it has
the lesser byte, or it ends there. -/
def LexBytes (xs ys : List UInt8) : Prop := List.Lex (fun x y => x.toNat < y.toNat) xs ys

/-- One text comes before another one if its bytes in UTF-8 do. -/
def Text.BytesBefore (s t : String) : Prop := LexBytes (utf8Bytes s) (utf8Bytes t)

namespace LexBytes

variable {xs ys : List UInt8}

theorem of_lt {m n : Nat} (h : m < n) (hn : n < 256) :
    LexBytes (.ofNat m :: xs) (.ofNat n :: ys) := by
  refine List.Lex.rel ?_
  rw [UInt8.toNat_ofNat_of_lt' (Nat.lt_trans h hn), UInt8.toNat_ofNat_of_lt' hn]
  exact h

theorem cons {x : UInt8} (h : LexBytes xs ys) : LexBytes (x :: xs) (x :: ys) := List.Lex.cons h

theorem asymm (h : LexBytes xs ys) : ¬ LexBytes ys xs := by
  have : Std.Asymm fun x y : UInt8 => x.toNat < y.toNat := ⟨fun _ _ => Nat.lt_asymm⟩
  exact (List.Lex.asymm fun x y : UInt8 => x.toNat < y.toNat).asymm xs ys h

end LexBytes

/-! ## The bytes of a character -/

/-- The bytes of a code point: a first byte that tells how many there are, and then six bits in
each of the others. -/
inductive CodeBytes (v : Nat) : List UInt8 → Prop where
  | one : v ≤ 0x7f → CodeBytes v [.ofNat v]
  | two : 0x7f < v → v ≤ 0x7ff → CodeBytes v [.ofNat (v / 64 + 192), .ofNat (v % 64 + 128)]
  | three : 0x7ff < v → v ≤ 0xffff → CodeBytes v
      [.ofNat (v / 4096 + 224), .ofNat (v / 64 % 64 + 128), .ofNat (v % 64 + 128)]
  | four : 0xffff < v → v < 0x110000 → CodeBytes v
      [.ofNat (v / 262144 + 240), .ofNat (v / 4096 % 64 + 128), .ofNat (v / 64 % 64 + 128),
        .ofNat (v % 64 + 128)]

/-- No code point is beyond the last plane. -/
theorem char_toNat_lt (c : Char) : c.toNat < 0x110000 := by
  rcases c.valid with h | ⟨-, h⟩
  · exact Nat.lt_trans h (by decide)
  · exact h

theorem codeBytes_utf8EncodeChar (c : Char) :
    CodeBytes c.toNat (String.utf8EncodeChar c) := by
  have hc := char_toNat_lt c
  rw [String.utf8EncodeChar]
  change c.val.toNat < 0x110000 at hc
  change CodeBytes c.val.toNat _
  generalize c.val.toNat = v at hc
  split
  · next hone => exact .one hone
  · next hone =>
    split
    · next htwo =>
      rw [Nat.mod_eq_of_lt (show v / 64 < 32 by omega)]
      exact .two (by omega) htwo
    · next htwo =>
      split
      · next hthree =>
        rw [Nat.mod_eq_of_lt (show v / 4096 < 16 by omega)]
        exact .three (by omega) hthree
      · rw [Nat.mod_eq_of_lt (show v / 262144 < 8 by omega)]
        exact .four (by omega) hc

/-- Of two code points the lesser one has the lesser bytes, whatever follows them.  Of code
points with the same number of bytes the first bits that differ decide, and more bytes mean a
greater first one. -/
theorem CodeBytes.lex {v w : Nat} {vs ws : List UInt8} (hvs : CodeBytes v vs)
    (hws : CodeBytes w ws) (h : v < w) (xs ys : List UInt8) :
    LexBytes (vs ++ xs) (ws ++ ys) := by
  cases hvs with
  | one hv =>
    cases hws with
    | one hw => exact .of_lt h (by omega)
    | two hw hw' => exact .of_lt (by omega) (by omega)
    | three hw hw' => exact .of_lt (by omega) (by omega)
    | four hw hw' => exact .of_lt (by omega) (by omega)
  | two hv hv' =>
    cases hws with
    | one hw => omega
    | two hw hw' =>
      rcases (by omega : v / 64 < w / 64 ∨ v / 64 = w / 64 ∧ v % 64 < w % 64) with h | ⟨h₁, h⟩
      · exact .of_lt (by omega) (by omega)
      · rw [h₁]
        exact .cons (.of_lt (by omega) (by omega))
    | three hw hw' => exact .of_lt (by omega) (by omega)
    | four hw hw' => exact .of_lt (by omega) (by omega)
  | three hv hv' =>
    cases hws with
    | one hw => omega
    | two hw hw' => omega
    | three hw hw' =>
      rcases (by omega : v / 4096 < w / 4096 ∨ v / 4096 = w / 4096 ∧
        (v / 64 % 64 < w / 64 % 64 ∨ v / 64 % 64 = w / 64 % 64 ∧ v % 64 < w % 64))
        with h | ⟨h₁, h | ⟨h₂, h⟩⟩
      · exact .of_lt (by omega) (by omega)
      · rw [h₁]
        exact .cons (.of_lt (by omega) (by omega))
      · rw [h₁, h₂]
        exact .cons (.cons (.of_lt (by omega) (by omega)))
    | four hw hw' => exact .of_lt (by omega) (by omega)
  | four hv hv' =>
    cases hws with
    | one hw => omega
    | two hw hw' => omega
    | three hw hw' => omega
    | four hw hw' =>
      rcases (by omega : v / 262144 < w / 262144 ∨ v / 262144 = w / 262144 ∧
        (v / 4096 % 64 < w / 4096 % 64 ∨ v / 4096 % 64 = w / 4096 % 64 ∧
          (v / 64 % 64 < w / 64 % 64 ∨ v / 64 % 64 = w / 64 % 64 ∧ v % 64 < w % 64)))
        with h | ⟨h₁, h | ⟨h₂, h | ⟨h₃, h⟩⟩⟩
      · exact .of_lt (by omega) (by omega)
      · rw [h₁]
        exact .cons (.of_lt (by omega) (by omega))
      · rw [h₁, h₂]
        exact .cons (.cons (.of_lt (by omega) (by omega)))
      · rw [h₁, h₂, h₃]
        exact .cons (.cons (.cons (.of_lt (by omega) (by omega))))

/-! ## The bytes of a text -/

namespace Text

/-- Characters in the order of their code points are in the order of their bytes. -/
theorem lexBytes_of_charsBefore {as bs : List Char} (h : charsBefore as bs = true) :
    LexBytes (as.flatMap String.utf8EncodeChar) (bs.flatMap String.utf8EncodeChar) := by
  induction as generalizing bs with
  | nil =>
    cases bs with
    | nil => simp [charsBefore] at h
    | cons b bs =>
      rw [List.flatMap_nil, List.flatMap_cons]
      obtain ⟨x, xs, hx⟩ := List.exists_cons_of_ne_nil (String.utf8EncodeChar_ne_nil (c := b))
      rw [hx]
      exact .nil
  | cons a as ih =>
    cases bs with
    | nil => simp [charsBefore] at h
    | cons b bs =>
      rw [List.flatMap_cons, List.flatMap_cons]
      rcases charsBefore_cons.1 h with hlt | ⟨rfl, htail⟩
      · exact (codeBytes_utf8EncodeChar a).lex (codeBytes_utf8EncodeChar b) hlt _ _
      · exact List.Lex.append_left _ (ih htail) _

/-- **The order of texts is the order of their bytes.** -/
theorem before_iff_bytesBefore {s t : String} : Before s t ↔ BytesBefore s t := by
  constructor
  · exact lexBytes_of_charsBefore
  · intro h
    rcases before_trichotomy s t with hst | rfl | hts
    · exact hst
    · exact absurd h h.asymm
    · exact absurd (lexBytes_of_charsBefore hts) h.asymm

end Text

end IndexPlanner

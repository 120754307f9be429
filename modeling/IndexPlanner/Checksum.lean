import IndexPlanner.Decimal.Digits
import IndexPlanner.Key

/-!
# Checksums of key lists

Two indexes on the same keys are duplicates, and a checksum of the keys finds most of the
others without comparing them.  It is the CRC-32 of the text `f:1,g:-1`, in UTF-8, with
the reflected polynomial `0xEDB88320`.

The register takes in bytes one at a time, so a text can be fed in pieces.  That is how
the keys are fed: one after the other, with a comma between two of them.

* `Crc32.feed` takes in bytes, and `Crc32.feed_append` says that pieces may be joined;
* `Checksum.ofKeys` is the checksum of a list of keys;
* `Checksum.feedKeys_eq_feed`: keys that are fed one after the other leave in the register
  what their joined text leaves there.
-/

namespace IndexPlanner

namespace Crc32

/-- Divides once by the polynomial, for one bit of the register. -/
def shift (r : UInt32) : UInt32 :=
  if r &&& 1 = 1 then (r >>> 1) ^^^ 0xEDB88320 else r >>> 1

/-- Takes in one byte. -/
def step (r : UInt32) (b : UInt8) : UInt32 :=
  Nat.repeat shift 8 (r ^^^ b.toUInt32)

/-- Takes in bytes, from the first to the last. -/
def feed (r : UInt32) (bytes : List UInt8) : UInt32 := bytes.foldl step r

/-- The register before the first byte. -/
def start : UInt32 := 0xFFFFFFFF

/-- The checksum that the register holds. -/
def finish (r : UInt32) : UInt32 := r ^^^ 0xFFFFFFFF

@[simp] theorem feed_nil (r : UInt32) : feed r [] = r := rfl

theorem feed_append (r : UInt32) (xs ys : List UInt8) :
    feed r (xs ++ ys) = feed (feed r xs) ys := List.foldl_append

end Crc32

/-- The bytes of a text in UTF-8. -/
def utf8Bytes (s : String) : List UInt8 := s.toList.flatMap String.utf8EncodeChar

theorem utf8Bytes_append (s t : String) : utf8Bytes (s ++ t) = utf8Bytes s ++ utf8Bytes t := by
  rw [utf8Bytes, String.toList_append, List.flatMap_append]
  rfl

/-- The bytes of joined texts: each text but the first one has the separator in front. -/
theorem utf8Bytes_intercalate_cons (sep s : String) (ss : List String) :
    utf8Bytes (sep.intercalate (s :: ss)) =
      utf8Bytes s ++ ss.flatMap fun t => utf8Bytes sep ++ utf8Bytes t := by
  induction ss generalizing s with
  | nil => rw [String.intercalate_singleton, List.flatMap_nil, List.append_nil]
  | cons t ss ih =>
    rw [String.intercalate_cons_cons, utf8Bytes_append, utf8Bytes_append, ih, List.flatMap_cons,
      List.append_assoc, List.append_assoc]

/-- The checksum of a list of keys. -/
structure Checksum where
  value : UInt32
  deriving DecidableEq, Repr, Inhabited

namespace Checksum

/-- Feeds the keys that follow the first one, each after a comma. -/
def feedRest (r : UInt32) : List Key → UInt32
  | [] => r
  | k :: ks => feedRest (Crc32.feed (Crc32.feed r (utf8Bytes ",")) (utf8Bytes k.text)) ks

/-- Feeds keys with a comma between two of them. -/
def feedKeys (r : UInt32) : List Key → UInt32
  | [] => r
  | k :: ks => feedRest (Crc32.feed r (utf8Bytes k.text)) ks

/-- The checksum of a list of keys. -/
def ofKeys (ks : List Key) : Checksum := ⟨Crc32.finish (feedKeys Crc32.start ks)⟩

/-- The text of a checksum: the name of the method and eight hexadecimal digits. -/
def text (c : Checksum) : String := "crc32:" ++ Decimal.hex c.value

theorem feedRest_eq_feed (r : UInt32) (ks : List Key) :
    feedRest r ks = Crc32.feed r (ks.flatMap fun k => utf8Bytes "," ++ utf8Bytes k.text) := by
  induction ks generalizing r with
  | nil => rfl
  | cons k ks ih =>
    rw [feedRest, ih, List.flatMap_cons, Crc32.feed_append, Crc32.feed_append]

/-- Keys that are fed one after the other leave in the register what their joined text leaves
there. -/
theorem feedKeys_eq_feed (r : UInt32) (ks : List Key) :
    feedKeys r ks = Crc32.feed r (utf8Bytes (",".intercalate (ks.map Key.text))) := by
  cases ks with
  | nil => rfl
  | cons k ks =>
    rw [feedKeys, feedRest_eq_feed, List.map_cons, utf8Bytes_intercalate_cons, List.flatMap_map,
      Crc32.feed_append]

end Checksum

end IndexPlanner

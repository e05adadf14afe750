/-!
# Texts of bounded length

A `Text capacity` is a string whose UTF-8 encoding has at most `capacity` bytes. The bound is
part of the type, so every text that is built, cut or stored keeps it. There are two ways in.
`ofString?` takes the whole string or nothing, and is for texts that mean something else when
cut, such as topics; `ofPieces?` does so for a string that is written piece by piece. `truncate`
keeps as many whole characters as fit, stops at the first one that does not, and is for values
that a person typed.

The budget is counted in bytes and the cut is made between characters, so both are defined over
the list of characters (`utf8Length`, `takeBytes`) and carried over to strings by
`utf8ByteSize_ofList`.
-/

namespace Luminaire

/-- The number of bytes the characters take in UTF-8. -/
def utf8Length : List Char → Nat
  | [] => 0
  | c :: cs => c.utf8Size + utf8Length cs

@[simp] theorem utf8Length_nil : utf8Length [] = 0 := rfl

@[simp] theorem utf8Length_cons (c : Char) (cs : List Char) :
    utf8Length (c :: cs) = c.utf8Size + utf8Length cs := rfl

theorem utf8Length_append (cs ds : List Char) :
    utf8Length (cs ++ ds) = utf8Length cs + utf8Length ds := by
  induction cs with
  | nil => simp
  | cons c cs ih => rw [List.cons_append, utf8Length_cons, utf8Length_cons, ih, Nat.add_assoc]

theorem utf8ByteSize_ofList (cs : List Char) :
    (String.ofList cs).utf8ByteSize = utf8Length cs := by
  induction cs with
  | nil => rfl
  | cons c cs ih =>
      have hsplit : String.ofList (c :: cs) = String.singleton c ++ String.ofList cs := by
        apply String.toList_injective
        simp
      rw [hsplit, String.utf8ByteSize_append, ih, String.utf8ByteSize_singleton, utf8Length_cons]

theorem utf8ByteSize_eq (s : String) : s.utf8ByteSize = utf8Length s.toList := by
  rw [← utf8ByteSize_ofList, String.ofList_toList]

/-- The characters up to the first one that exceeds the byte budget. -/
def takeBytes : Nat → List Char → List Char
  | _, [] => []
  | budget, c :: cs =>
      if c.utf8Size ≤ budget then c :: takeBytes (budget - c.utf8Size) cs else []

@[simp] theorem takeBytes_nil (budget : Nat) : takeBytes budget [] = [] := rfl

theorem takeBytes_cons (budget : Nat) (c : Char) (cs : List Char) :
    takeBytes budget (c :: cs) =
      if c.utf8Size ≤ budget then c :: takeBytes (budget - c.utf8Size) cs else [] := rfl

theorem utf8Length_takeBytes_le (budget : Nat) (cs : List Char) :
    utf8Length (takeBytes budget cs) ≤ budget := by
  induction cs generalizing budget with
  | nil => exact Nat.zero_le _
  | cons c cs ih =>
      rw [takeBytes_cons]
      split
      · have := ih (budget - c.utf8Size)
        rw [utf8Length_cons]
        omega
      · exact Nat.zero_le _

/-- A string of at most `capacity` bytes. -/
structure Text (capacity : Nat) where
  content : String
  fits : content.utf8ByteSize ≤ capacity
deriving DecidableEq

namespace Text

variable {capacity : Nat}

@[ext] theorem ext {a b : Text capacity} (h : a.content = b.content) : a = b := by
  cases a
  cases b
  cases h
  rfl

/-- The text without characters. -/
def empty : Text capacity := ⟨"", Nat.zero_le _⟩

/-- The whole string, if it fits. -/
def ofString? (s : String) : Option (Text capacity) :=
  if h : s.utf8ByteSize ≤ capacity then some ⟨s, h⟩ else none

theorem ofString?_eq_some_iff (s : String) (t : Text capacity) :
    ofString? s = some t ↔ s = t.content := by
  constructor
  · intro h
    rw [ofString?] at h
    split at h
    · exact congrArg Text.content (Option.some.inj h)
    · cases h
  · rintro rfl
    rw [ofString?, dif_pos t.fits]

theorem ofString?_eq_none_iff (s : String) :
    (ofString? s : Option (Text capacity)) = none ↔ capacity < s.utf8ByteSize := by
  rw [ofString?]
  split
  · simp only [reduceCtorEq, false_iff]
    omega
  · simp only [true_iff]
    omega

/-- The text with a piece behind it, if there is room for all of the piece. -/
def append? (t : Text capacity) (piece : String) : Option (Text capacity) :=
  ofString? (t.content ++ piece)

/-- The pieces one behind the other, if there is room for each of them. -/
def ofPieces? (pieces : List String) : Option (Text capacity) := pieces.foldlM append? empty

theorem foldlM_append?_eq_some_iff (pieces : List String) (t u : Text capacity) :
    pieces.foldlM append? t = some u ↔ t.content ++ String.join pieces = u.content := by
  induction pieces generalizing t with
  | nil =>
      rw [List.foldlM_nil, String.join_nil, String.append_empty]
      exact ⟨fun h => congrArg content (Option.some.inj h), fun h => congrArg some (ext h)⟩
  | cons piece rest ih =>
      rw [List.foldlM_cons, String.join_cons, ← String.append_assoc]
      refine Option.bind_eq_some_iff.trans ⟨?_, fun h => ?_⟩
      · rintro ⟨v, hv, hrest⟩
        rw [append?, ofString?_eq_some_iff] at hv
        rw [hv]
        exact (ih v).1 hrest
      · -- the whole fits, and so does what is written of it first
        have hfits : (t.content ++ piece).utf8ByteSize ≤ capacity := by
          have hu := u.fits
          rw [← h, String.utf8ByteSize_append] at hu
          omega
        exact ⟨⟨t.content ++ piece, hfits⟩, (ofString?_eq_some_iff _ _).2 rfl, (ih _).2 h⟩

theorem ofPieces?_eq_some_iff (pieces : List String) (t : Text capacity) :
    ofPieces? pieces = some t ↔ String.join pieces = t.content := by
  rw [ofPieces?, foldlM_append?_eq_some_iff]
  show "" ++ String.join pieces = t.content ↔ _
  rw [String.empty_append]

/-- Writing piece by piece comes to the same as having written everything at once. -/
theorem ofPieces?_eq (pieces : List String) :
    (ofPieces? pieces : Option (Text capacity)) = ofString? (String.join pieces) := by
  apply Option.ext
  intro t
  rw [ofPieces?_eq_some_iff, ofString?_eq_some_iff]

/-- As many whole characters of the string as fit, up to the first that does not. -/
def truncate (s : String) : Text capacity where
  content := String.ofList (takeBytes capacity s.toList)
  fits := by
    rw [utf8ByteSize_ofList]
    exact utf8Length_takeBytes_le capacity s.toList

@[simp] theorem toList_truncate (s : String) :
    (truncate s : Text capacity).content.toList = takeBytes capacity s.toList := by
  simp [truncate]

end Text

end Luminaire

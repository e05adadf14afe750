import Luminaire.Node.Settings
import Luminaire.Proofs.Text.Cut

/-!
# Setting up a node

Settings change one text at a time, or user name and password together. What is set is cut to the
room there is for it, and replaces what was there. So after any changes each text is the front of
the last string that was set for it, whatever was set before or set for the others, and the address
of the broker and the first DMX slot are what they were.
-/

namespace Luminaire

theorem filterMap_cons_eq_append {α β : Type} (f : α → Option β) (a : α) (l : List α) :
    (a :: l).filterMap f = (f a).toList ++ l.filterMap f := by
  cases h : f a <;> simp [h]

/-- What a text becomes when strings are set for it one after another. -/
def Text.latest {capacity : Nat} (t : Text capacity) (strings : List String) : Text capacity :=
  (strings.getLast?.map truncate).getD t

namespace Text

variable {capacity : Nat}

@[simp] theorem latest_nil (t : Text capacity) : t.latest [] = t := rfl

theorem latest_cons (t : Text capacity) (string : String) (strings : List String) :
    t.latest (string :: strings) = (truncate string).latest strings := by
  rw [latest, latest, List.getLast?_cons]
  cases strings.getLast? <;> rfl

theorem latest_append (t : Text capacity) (strings later : List String) :
    t.latest (strings ++ later) = (t.latest strings).latest later := by
  induction strings generalizing t with
  | nil => rfl
  | cons string strings ih => rw [List.cons_append, latest_cons, latest_cons, ih]

/-- A text that was cut when it was set becomes the cut of the last of all strings. -/
theorem latest_truncate (string : String) (strings : List String) :
    (truncate string : Text capacity).latest strings = truncate (strings.getLastD string) := by
  rw [latest, List.getLastD_eq_getLast?]
  cases strings.getLast? <;> rfl

end Text

namespace Settings

/-- A change of the settings. -/
inductive Change where
  | user (name : String)
  | password (word : String)
  | root (start : String)
  | credentials (name word : String)

namespace Change

/-- The user name that a change sets. -/
def user? : Change → Option String
  | user name | credentials name _ => some name
  | password _ | root _ => none

/-- The password that a change sets. -/
def password? : Change → Option String
  | password word | credentials _ word => some word
  | user _ | root _ => none

/-- The root that a change sets. -/
def root? : Change → Option String
  | root start => some start
  | user _ | password _ | credentials _ _ => none

/-- The settings after a change. -/
def apply (s : Settings) : Change → Settings
  | user name => s.setUser name
  | password word => s.setPassword word
  | root start => s.setRoot start
  | credentials name word => s.withCredentials name word

/-- A change replaces the texts that it sets and no other. -/
theorem apply_eq (s : Settings) (change : Change) :
    change.apply s =
      { s with
        user := s.user.latest change.user?.toList
        password := s.password.latest change.password?.toList
        root := s.root.latest change.root?.toList } := by
  cases change with
  | user name => rfl
  | password word => rfl
  | root start => rfl
  | credentials name word => rfl

end Change

/-- The settings after changes one after another. -/
def revise (s : Settings) (changes : List Change) : Settings := changes.foldl Change.apply s

theorem revise_cons (s : Settings) (change : Change) (changes : List Change) :
    s.revise (change :: changes) = (change.apply s).revise changes := rfl

/-- After any changes each text is the latest of what was set for it. -/
theorem revise_eq (s : Settings) (changes : List Change) :
    s.revise changes =
      { s with
        user := s.user.latest (changes.filterMap Change.user?)
        password := s.password.latest (changes.filterMap Change.password?)
        root := s.root.latest (changes.filterMap Change.root?) } := by
  induction changes generalizing s with
  | nil => rfl
  | cons change changes ih =>
      simp only [revise_cons, ih, Change.apply_eq, filterMap_cons_eq_append, Text.latest_append]

/-- Cutting a string keeps the longest of its fronts that fit: all of it if it fits, and otherwise
as much as the next character leaves no room for, whatever comes behind it; what was cut is not cut
again. After any changes of the settings each of their texts is the cut of the last string that was
set for it, and what it was if none was set; the address of the broker and the first DMX slot stay
what they were. For a node that was set up with a root, this holds from the beginning. -/
theorem settings_hold_last_fronts :
    (∀ (capacity : Nat) (text front : String), IsLongestFront capacity text front ↔
      front = (Text.truncate text : Text capacity).content) ∧
    (∀ (capacity : Nat) (text : String),
      ((Text.truncate text : Text capacity).content = text ↔ text.utf8ByteSize ≤ capacity) ∧
      (∀ c rest, text.toList = (Text.truncate text : Text capacity).content.toList ++ c :: rest →
        capacity < (Text.truncate text : Text capacity).content.utf8ByteSize + c.utf8Size) ∧
      (Text.truncate (Text.truncate text : Text capacity).content : Text capacity) =
        Text.truncate text) ∧
    (∀ (s : Settings) (changes : List Change), s.revise changes =
      { s with
        user := s.user.latest (changes.filterMap Change.user?)
        password := s.password.latest (changes.filterMap Change.password?)
        root := s.root.latest (changes.filterMap Change.root?) }) ∧
    ∀ broker root start changes, ((create broker root).withDmxStart start).revise changes =
      { broker := broker
        user := Text.truncate ((changes.filterMap Change.user?).getLastD "")
        password := Text.truncate ((changes.filterMap Change.password?).getLastD "")
        root := Text.truncate ((changes.filterMap Change.root?).getLastD root)
        dmxStart := start } := by
  refine ⟨fun capacity => Text.isLongestFront_iff, fun capacity text => ?_, revise_eq, ?_⟩
  · have hlongest : IsLongestFront capacity text (Text.truncate text : Text capacity).content :=
      Text.isLongestFront_truncate text
    exact ⟨hlongest.eq_text_iff, fun _ _ => hlongest.lt_of_next, Text.truncate_content _⟩
  · intro broker root start changes
    rw [revise_eq, ← Text.latest_truncate, ← Text.latest_truncate, ← Text.latest_truncate]
    rfl

/-- A user name whose fifteenth byte lies within a letter of two bytes, with a shorter letter behind
it, and a password that was set before. -/
theorem settings_hold_last_fronts_umlaut :
    let text := "abcdefghijklmnäo"
    let s := ((create #v[192, 168, 1, 2] "hall").withDmxStart 7).revise
      [.credentials "first" "word", .user text]
    text.toList = s.user.content.toList ++ 'ä' :: ['o'] ∧
      Settings.credentialCapacity < s.user.content.utf8ByteSize + 'ä'.utf8Size ∧
      s.user.content = "abcdefghijklmn" ∧ s.password.content = "word" ∧ s.root.content = "hall" ∧
      s.dmxStart = 7 := by
  intro text s
  obtain ⟨-, hcut, -, hcreated⟩ := settings_hold_last_fronts
  have hs : s = _ := hcreated #v[192, 168, 1, 2] "hall" 7 [.credentials "first" "word", .user text]
  have hrest : text.toList =
      (Text.truncate text : Text credentialCapacity).content.toList ++ 'ä' :: ['o'] := by
    decide +kernel
  rw [hs]
  exact ⟨hrest, (hcut credentialCapacity text).2.1 'ä' ['o'] hrest, by decide +kernel,
    by decide +kernel, by decide +kernel, rfl⟩

end Settings

end Luminaire

import Emend.Document.Typing
import Emend.Proofs.Document.Timeline
import Mathlib.Data.List.SplitBy

/-!
# Typing becomes stretches

Keystrokes that are recorded one after the other end up as one entry for each stretch of typing
(`record_eq_entries`). The invariant of a stretch is what its entry has become so far: it ends where
the next character goes, and its time is that of the last keystroke, so the pause is always measured
from there (`record_onto`). The first keystroke of a stretch stands apart from the entry before it
for the reason for which the text is cut there, so the stretches follow each other
(`record_flatten`).

Nothing is asked of the clock: a keystroke that is earlier than the one before it makes no pause.
-/

namespace Emend.Typing

variable {history : History} {position interval : Nat} {key first last : Keystroke}
  {keys rest : List Keystroke} {previous : HistoryEntry} {older : List HistoryEntry}

/-! ## One keystroke -/

/-- Keystrokes that go on with each other: none of them begins a stretch. -/
abbrev GoOn (interval : Nat) (keys : List Keystroke) : Prop :=
  keys.IsChain fun before key => (!begins interval before.time key) = true

/-- A keystroke cannot go on with the newest entry of the history, if there is one: that removed
text, or ends elsewhere, or is too old, or the character is a space. -/
def StandsApart (history : History) (position : Nat) (key : Keystroke) : Prop :=
  ∀ previous ∈ history.applied.head?, previous.before.text ≠ [] ∨ previous.after.stop ≠ position ∨
    history.typingInterval ≤ key.time - previous.time ∨ key.char = ' '

/-- What it takes to go on with an entry. -/
theorem continues_iff (hjoins : key.Joins) :
    history.continues previous (key.entry position) key.time = true ↔
      previous.before.text = [] ∧ previous.after.stop = position ∧
        begins history.typingInterval previous.time key = false := by
  have hjoin : (key.typed || !key.solid) = true := by
    simpa [Keystroke.Joins] using hjoins
  have hposition : (key.entry position).after.start = position := rfl
  have htext : (key.entry position).after.text = [key.char] := rfl
  have hnothing : (key.entry position).before.text = [] := rfl
  have hkind : ((key.entry position).typed || !(key.entry position).solid) = true := hjoin
  unfold History.continues HistoryEntry.isTyping begins
  rw [hkind, hposition, htext, hnothing]
  simp only [Bool.true_and, List.isEmpty_nil, List.length_singleton, beq_self_eq_true,
    Bool.and_eq_true, List.isEmpty_iff, bne_iff_ne, ne_eq, List.cons.injEq, and_true, beq_iff_eq,
    decide_eq_true_eq, Bool.or_eq_false_iff, beq_eq_false_iff_ne, decide_eq_false_iff_not]
  constructor
  · rintro ⟨⟨⟨hempty, hchar⟩, hstop⟩, htime⟩
    exact ⟨hempty, hstop, hchar, Nat.not_le_of_lt htime⟩
  · rintro ⟨hempty, hstop, hchar, htime⟩
    exact ⟨⟨⟨hempty, hchar⟩, hstop⟩, Nat.lt_of_not_le htime⟩

/-- A keystroke that stands apart becomes an entry of its own. -/
theorem add_of_standsApart (hjoins : key.Joins) (h : StandsApart history position key) :
    history.add (key.entry position) key.time =
      { history with applied := stretchEntry position key [] :: history.applied, undone := [] } := by
  rcases history.add_cases (key.entry position) key.time with
    heq | ⟨previous, older, happlied, hgoes, _⟩
  · exact heq
  · obtain ⟨hempty, hstop, hbegins⟩ := (continues_iff hjoins).1 hgoes
    unfold begins at hbegins
    rw [Bool.or_eq_false_iff, beq_eq_false_iff_ne, decide_eq_false_iff_not] at hbegins
    have hprevious : previous ∈ history.applied.head? := by
      rw [happlied]
      exact rfl
    rcases h previous hprevious with hremoved | helsewhere | hlate | hspace
    · exact absurd hempty hremoved
    · exact absurd hstop helsewhere
    · exact absurd hlate hbegins.2
    · exact absurd hspace hbegins.1

/-- A keystroke that begins no stretch goes on with the entry that it follows. -/
theorem add_of_goesOn (hjoins : key.Joins) (happlied : history.applied = previous :: older)
    (hempty : previous.before.text = []) (hstop : previous.after.stop = position)
    (hgoes : begins history.typingInterval previous.time key = false) :
    history.add (key.entry position) key.time =
      { history with applied := previous.goOn (key.entry position) key.time :: older,
                     undone := [] } := by
  have hcontinues : history.continues previous (key.entry position) key.time = true :=
    (continues_iff hjoins).2 ⟨hempty, hstop, hgoes⟩
  unfold History.add
  rw [happlied]
  dsimp only
  rw [if_pos hcontinues]
  rfl

/-! ## One stretch -/

/-- What an entry becomes when keystrokes go on with it. -/
def grown (previous : HistoryEntry) (last : Keystroke) (keys : List Keystroke) : HistoryEntry :=
  { previous with
    after := ⟨previous.after.start, previous.after.stop + keys.length,
      previous.after.text ++ keys.map (·.char)⟩
    time := (keys.getLastD last).time }

/-- **Keystrokes that go on with an entry make it grow.** -/
theorem record_onto (hjoins : ∀ key ∈ keys, key.Joins) (happlied : history.applied = previous :: older)
    (hundone : history.undone = []) (hempty : previous.before.text = [])
    (hstop : previous.after.stop = position) (htime : previous.time = last.time)
    (hgoes : GoOn history.typingInterval (last :: keys)) :
    record history position keys = { history with applied := grown previous last keys :: older } := by
  induction keys generalizing history previous position last with
  | nil =>
    have hsame : grown previous last [] = previous := by
      unfold grown
      rw [List.map_nil, List.append_nil, List.getLastD_nil, ← htime]
      rfl
    rw [hsame, ← happlied]
    rfl
  | cons key rest ih =>
    obtain ⟨hkey, hrest⟩ := List.isChain_cons_cons.1 hgoes
    rw [Bool.not_eq_true', ← htime] at hkey
    have hadd := add_of_goesOn (hjoins key List.mem_cons_self) happlied hempty hstop hkey
    have hlonger : (previous.goOn (key.entry position) key.time).after.stop = position + 1 := rfl
    have hgrown : grown (previous.goOn (key.entry position) key.time) key rest =
        grown previous last (key :: rest) := by
      unfold grown
      rw [hlonger, ← hstop, List.length_cons, List.map_cons, List.getLastD_cons]
      simp only [HistoryEntry.goOn, Passage.append, Keystroke.entry, Passage.at,
        List.append_assoc, List.singleton_append, Nat.add_assoc, Nat.add_comm 1]
    rw [record, hadd, ← hgrown, hundone]
    exact ih (fun other hmem => hjoins other (List.mem_cons_of_mem _ hmem)) rfl rfl hempty hlonger
      rfl hrest

/-- **A stretch becomes an entry of its own.** -/
theorem record_stretch (hjoins : ∀ key ∈ first :: rest, key.Joins)
    (hapart : StandsApart history position first)
    (hgoes : GoOn history.typingInterval (first :: rest)) :
    record history position (first :: rest) =
      { history with applied := stretchEntry position first rest :: history.applied,
                     undone := [] } := by
  have hfirst := add_of_standsApart (hjoins first List.mem_cons_self) hapart
  have hgrown : grown (stretchEntry position first []) first rest =
      stretchEntry position first rest := by
    unfold grown stretchEntry Passage.at
    simp only [List.map_cons, List.map_nil, List.length_cons, List.length_nil, List.length_map,
      List.singleton_append, Nat.add_assoc, Nat.zero_add, Nat.add_comm 1]
  rw [record, hfirst, ← hgrown]
  exact record_onto (fun other hmem => hjoins other (List.mem_cons_of_mem _ hmem)) rfl rfl rfl rfl rfl
    hgoes

/-! ## Stretch after stretch -/

/-- Keystrokes are recorded one after the other. -/
theorem record_append (history : History) (position : Nat) (keys others : List Keystroke) :
    record history position (keys ++ others) =
      record (record history position keys) (position + keys.length) others := by
  induction keys generalizing history position with
  | nil => rfl
  | cons key rest ih =>
    rw [List.cons_append, record, record, ih, List.length_cons, Nat.add_right_comm, Nat.add_assoc]

/-- A stretch that is cut off from the one before it stands apart from its entry. -/
theorem standsApart_of_begins (happlied : history.applied = previous :: older)
    (hbegins : begins history.typingInterval previous.time key = true) :
    StandsApart history position key := by
  intro other hother
  rw [happlied, List.head?_cons, Option.mem_some_iff] at hother
  unfold begins at hbegins
  rw [Bool.or_eq_true, beq_iff_eq, decide_eq_true_eq, hother] at hbegins
  rcases hbegins with hspace | hlate
  · exact .inr (.inr (.inr hspace))
  · exact .inr (.inr (.inl hlate))

/-- **Stretches become entries, one after the other.** -/
theorem record_flatten {pieces : List (List Keystroke)}
    (hjoins : ∀ piece ∈ pieces, ∀ key ∈ piece, key.Joins) (hnonempty : [] ∉ pieces)
    (hgoes : ∀ piece ∈ pieces, GoOn history.typingInterval piece)
    (hcut : pieces.IsChain fun piece next => ∃ hpiece hnext,
      (!begins history.typingInterval (piece.getLast hpiece).time (next.head hnext)) = false)
    (hundone : history.undone = [])
    (hapart : ∀ key ∈ pieces.flatten.head?, StandsApart history position key) :
    record history position pieces.flatten =
      { history with applied := (entries position pieces).reverse ++ history.applied } := by
  induction pieces generalizing history position with
  | nil => rfl
  | cons piece others ih =>
    cases piece with
    | nil => exact absurd List.mem_cons_self hnonempty
    | cons first rest =>
      have hstretch := record_stretch (hjoins _ List.mem_cons_self) (hapart first rfl)
        (hgoes _ List.mem_cons_self)
      -- The next stretch is cut off from the last keystroke of this one.
      have hnext : ∀ key ∈ others.flatten.head?, StandsApart
          { history with applied := stretchEntry position first rest :: history.applied,
                         undone := [] } (position + (rest.length + 1)) key := by
        intro key hkey
        cases others with
        | nil => cases hkey
        | cons next more =>
          obtain ⟨⟨_, hsome, hbegins⟩, _⟩ := List.isChain_cons_cons.1 hcut
          rw [List.getLast_eq_getLastD, Bool.not_eq_false'] at hbegins
          obtain ⟨begun, more', rfl⟩ := List.exists_cons_of_ne_nil hsome
          obtain rfl : begun = key := Option.some.inj hkey
          exact standsApart_of_begins rfl hbegins
      rw [List.flatten_cons, record_append, hstretch, List.length_cons, entries,
        List.reverse_cons, List.append_assoc, List.singleton_append, hundone]
      exact ih (fun piece hmem => hjoins piece (List.mem_cons_of_mem _ hmem))
        (fun hmem => hnonempty (List.mem_cons_of_mem _ hmem))
        (fun piece hmem => hgoes piece (List.mem_cons_of_mem _ hmem)) hcut.of_cons rfl hnext

/-- What can be redone is dropped by the first keystroke. -/
theorem record_undone (history : History) (position : Nat) (hkeys : keys ≠ []) :
    record { history with undone := [] } position keys = record history position keys := by
  cases keys with
  | nil => exact absurd rfl hkeys
  | cons key rest =>
    have hadd : History.add { history with undone := [] } (key.entry position) key.time =
        history.add (key.entry position) key.time := by
      unfold History.add
      cases history.applied <;> rfl
    rw [record, record, hadd]

/-- **Typing coalesces exactly at spaces and pauses.** When characters are typed one after the other
from a position on, and the first of them cannot go on with the newest entry, there is one new entry
for each of the stretches into which they are cut before spaces and after pauses. It holds the text
of the stretch in its place; its time is that of the last keystroke. Older entries stay as they are,
and nothing is left to redo. -/
theorem record_eq_entries (history : History) (position : Nat) {keys : List Keystroke}
    (hkeys : keys ≠ []) (hjoins : ∀ key ∈ keys, key.Joins)
    (hapart : StandsApart history position (keys.head hkeys)) :
    record history position keys =
      { history with
        applied := (entries position (stretches history.typingInterval keys)).reverse ++
          history.applied
        undone := [] } := by
  have hflatten : (stretches history.typingInterval keys).flatten = keys :=
    List.flatten_splitBy _ keys
  have hfirst : ∀ key ∈ (stretches history.typingInterval keys).flatten.head?,
      StandsApart { history with undone := [] } position key := by
    intro key hkey
    rw [hflatten, List.head?_eq_some_head hkeys, Option.mem_some_iff] at hkey
    rw [← hkey]
    exact hapart
  have hcut : (stretches history.typingInterval keys).IsChain fun piece next =>
      ∃ hpiece hnext, (!begins history.typingInterval (piece.getLast hpiece).time
        (next.head hnext)) = false :=
    List.isChain_getLast_head_splitBy
      (fun before key => !begins history.typingInterval before.time key) keys
  calc record history position keys
    _ = record { history with undone := [] } position keys :=
        (record_undone history position hkeys).symm
    _ = record { history with undone := [] } position
          (stretches history.typingInterval keys).flatten := by rw [hflatten]
    _ = _ := record_flatten
        (fun piece hpiece key hkey =>
          hjoins key (hflatten ▸ List.mem_flatten_of_mem hpiece hkey))
        (List.nil_notMem_splitBy _ keys) (fun piece hpiece => List.isChain_of_mem_splitBy hpiece)
        hcut rfl hfirst

/-- Keystrokes from the keyboard, with their times. -/
def keystrokes (keys : List (Char × Nat)) : List Keystroke :=
  keys.map fun (char, time) => ⟨char, time, 0, false, true, true⟩

/-- Behind a deletion, and with something to redo: the space begins the stretch that the next letter
goes on with, and a pause ends it. -/
theorem record_eq_entries_pause :
    record ⟨[⟨0, .at 3 ['x'], .at 3 [], 0, false, true, false⟩],
        [⟨0, .at 0 [], .at 0 ['y'], 0, false, true, false⟩], true, 100⟩ 3
        (keystrokes [('a', 0), ('b', 20), (' ', 40), ('c', 139), ('d', 239)]) =
      ⟨[⟨0, .at 7 [], .at 7 ['d'], 239, false, true, true⟩,
        ⟨0, .at 5 [], .at 5 [' ', 'c'], 139, false, true, true⟩,
        ⟨0, .at 3 [], .at 3 ['a', 'b'], 20, false, true, true⟩,
        ⟨0, .at 3 ['x'], .at 3 [], 0, false, true, false⟩], [], true, 100⟩ := by
  have hjoins : ∀ key ∈ keystrokes [('a', 0), ('b', 20), (' ', 40), ('c', 139), ('d', 239)],
      key.Joins := by
    unfold Keystroke.Joins
    decide
  refine (record_eq_entries _ 3 (by decide) hjoins ?_).trans (by decide)
  -- The deletion cannot be gone on with.
  intro previous hprevious
  obtain rfl := Option.some.inj hprevious
  exact .inl (by decide)

end Emend.Typing

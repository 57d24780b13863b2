import Emend.Proofs.Command.Gathering
import Emend.Proofs.Command.Leaving
import Emend.Proofs.Command.Visiting

/-!
# Addresses as programs

An address is evaluated on its own, or it is a program that only moves dot. On its own its tokens
are read up to the end of the text. In a program they are read up to a command, so whatever may
begin one is looked for before each token. No character begins both (`starts_of_isLetter`), so the
two loops cut an address alike.

A program begins with dot brought into the text, an address with dot as it is. Every place is taken
relative to a range that is brought into the text first, so this makes no difference
(`Address.evaluate_clamp`), and an address means the same in both ways: `interpret_address`.
-/

namespace Emend

variable {σ : Type}

/-! ## Two loops -/

/-- No token of an address begins with the letter of a command. -/
theorem AddressToken.starts_of_isLetter {c : Char} (h : Command.isLetter c = true) :
    starts c = false := by
  have hletters : ("acidsmtp=xygv<>|erw\x7b".toList.all fun c => !starts c) = true := by decide
  unfold Command.isLetter at h
  rw [String.contains_char_eq, decide_eq_true_eq] at h
  rw [← Bool.not_eq_true', List.all_eq_true.1 hletters c h]

/-- What begins a token does not end an address. -/
theorem AddressToken.not_ends_of_starts {c : Char} (h : starts c = true) :
    ¬(c = '\x7d' ∨ Command.isLetter c = true) := by
  rintro (rfl | hletter)
  · cases h
  · rw [starts_of_isLetter hletter] at h
    cases h

/-- Only what begins a token can be read as one. -/
theorem AddressToken.read_of_not_starts {c : Char} (h : starts c = false) (rest : List Char) :
    read c rest = .error (.notAnAddress c) := by
  unfold read
  split
  case h_10 =>
    have hdigit : c.isDigit = false := by
      unfold starts at h
      exact (Bool.or_eq_false_iff.1 h).2
    rw [hdigit, if_neg Bool.false_ne_true]
  all_goals exact absurd h (by decide)

/-- Reads tokens up to the end of a text, with blanks before each. -/
def AddressToken.readToEnd (chars : List Char) : Except ParseError (List AddressToken) :=
  match _ : chars.dropWhile isBlank with
  | [] => .ok []
  | c :: rest =>
    match _ : read c rest with
    | .error error => .error error
    | .ok (token, after) => (readToEnd after).map (token :: ·)
termination_by chars.length
decreasing_by
  rename_i hchars hread
  have hle := length_dropWhile_le isBlank chars
  have := length_of_read hread
  rw [hchars, List.length_cons] at hle
  omega

/-- Reads the tokens before a command: a closing brace and the letters of commands are looked for
before a token is. -/
def Command.readRange (chars : List Char) : Except ParseError (List AddressToken × List Char) :=
  match _ : chars.dropWhile isBlank with
  | [] => .ok ([], [])
  | c :: rest =>
    if c = '\x7d' ∨ isLetter c then .ok ([], c :: rest)
    else if AddressToken.starts c then
      match _ : AddressToken.read c rest with
      | .error error => .error error
      | .ok (token, after) =>
        (readRange after).map fun (tokens, rest) => (token :: tokens, rest)
    else .error (.unknownCommand c)
termination_by chars.length
decreasing_by
  rename_i hchars _ _ hread
  have hle := length_dropWhile_le isBlank chars
  have := AddressToken.length_of_read hread
  rw [hchars, List.length_cons] at hle
  omega

section

variable {chars rest : List Char} {c : Char}

/-- Behind the last token an address ends. -/
theorem AddressToken.readToEnd_nil (h : chars.dropWhile isBlank = []) :
    readToEnd chars = .ok [] := by
  rw [readToEnd]
  split
  · rfl
  · next hcons =>
    rw [h] at hcons
    cases hcons

/-- The first token comes before those that are read behind it. -/
theorem AddressToken.readToEnd_cons (h : chars.dropWhile isBlank = c :: rest) :
    readToEnd chars =
      match read c rest with
      | .error error => .error error
      | .ok (token, after) => (readToEnd after).map (token :: ·) := by
  rw [readToEnd]
  split
  · next hnil =>
    rw [h] at hnil
    cases hnil
  · next hcons =>
    rw [h] at hcons
    cases hcons
    split <;> next heq => rw [heq]

/-- A command may end with the text. -/
theorem Command.readRange_nil (h : chars.dropWhile isBlank = []) :
    readRange chars = .ok ([], []) := by
  rw [readRange]
  split
  · rfl
  · next hcons =>
    rw [h] at hcons
    cases hcons

/-- A closing brace or the letter of a command ends an address, and anything else that does not
begin a token is an error. -/
theorem Command.readRange_cons (h : chars.dropWhile isBlank = c :: rest) :
    readRange chars =
      if c = '\x7d' ∨ isLetter c then .ok ([], c :: rest)
      else if AddressToken.starts c then
        match AddressToken.read c rest with
        | .error error => .error error
        | .ok (token, after) =>
          (readRange after).map fun (tokens, rest) => (token :: tokens, rest)
      else .error (.unknownCommand c) := by
  rw [readRange]
  split
  · next hnil =>
    rw [h] at hnil
    cases hnil
  · next hcons =>
    rw [h] at hcons
    cases hcons
    split
    · rfl
    · split
      · split <;> next heq => rw [heq]
      · rfl

end

/-- The text of an address holds tokens only. -/
theorem AddressToken.readToEnd_eq (chars : List Char) :
    readToEnd chars =
      match readAll isBlank chars with
      | .error error => .error error
      | .ok (_, c :: _) => .error (.notAnAddress c)
      | .ok (tokens, []) => .ok tokens := by
  fun_induction readAll isBlank chars with
  | case1 chars hnil => exact readToEnd_nil hnil
  | case2 chars c rest hcons hstarts error herror =>
    rw [readToEnd_cons hcons, herror]
  | case3 chars c rest hcons hstarts token after hread ih =>
    rw [readToEnd_cons hcons, hread]
    dsimp only
    rw [ih]
    rcases readAll isBlank after with error | ⟨tokens, _ | ⟨next, others⟩⟩ <;> rfl
  | case4 chars c rest hcons hstarts =>
    rw [readToEnd_cons hcons, read_of_not_starts (Bool.eq_false_iff.2 hstarts)]

/-- In front of a command there are tokens only. -/
theorem Command.readRange_eq (chars : List Char) :
    readRange chars =
      match AddressToken.readAll isBlank chars with
      | .error error => .error error
      | .ok (tokens, c :: rest) =>
        if c = '\x7d' ∨ isLetter c then .ok (tokens, c :: rest) else .error (.unknownCommand c)
      | .ok (tokens, []) => .ok (tokens, []) := by
  fun_induction AddressToken.readAll isBlank chars with
  | case1 chars hnil => exact readRange_nil hnil
  | case2 chars c rest hcons hstarts error herror =>
    rw [readRange_cons hcons, if_neg (AddressToken.not_ends_of_starts hstarts), if_pos hstarts,
      herror]
  | case3 chars c rest hcons hstarts token after hread ih =>
    rw [readRange_cons hcons, if_neg (AddressToken.not_ends_of_starts hstarts), if_pos hstarts,
      hread]
    dsimp only
    rw [ih]
    rcases AddressToken.readAll isBlank after with error | ⟨tokens, _ | ⟨next, others⟩⟩
    · rfl
    · rfl
    · by_cases hends : next = '\x7d' ∨ isLetter next = true
      · dsimp only
        rw [if_pos hends]
        exact (if_pos hends).symm
      · dsimp only
        rw [if_neg hends]
        exact (if_neg hends).symm
  | case4 chars c rest hcons hstarts =>
    rw [readRange_cons hcons, if_neg hstarts]

/-- A text that holds tokens only is read alike in front of a command. -/
theorem Command.readRange_of_readToEnd {chars : List Char} {tokens : List AddressToken}
    (h : AddressToken.readToEnd chars = .ok tokens) : readRange chars = .ok (tokens, []) := by
  fun_induction AddressToken.readToEnd chars generalizing tokens with
  | case1 chars hnil =>
    cases h
    exact readRange_nil hnil
  | case2 => cases h
  | case3 chars c rest hcons token after hread ih =>
    have hstarts : AddressToken.starts c = true := by
      cases hstarts : AddressToken.starts c with
      | true => rfl
      | false =>
        rw [AddressToken.read_of_not_starts hstarts] at hread
        cases hread
    obtain ⟨others, hothers, rfl⟩ : ∃ others, AddressToken.readToEnd after = .ok others ∧
        token :: others = tokens := by
      cases hafter : AddressToken.readToEnd after with
      | error error =>
        rw [hafter] at h
        cases h
      | ok others =>
        rw [hafter] at h
        exact ⟨others, rfl, Except.ok.inj h⟩
    rw [readRange_cons hcons, if_neg (AddressToken.not_ends_of_starts hstarts), if_pos hstarts,
      hread]
    dsimp only
    rw [ih hothers]
    rfl

/-- An address is what its tokens up to the end of the text write. -/
theorem Address.parse_eq (text : String) :
    Address.parse text =
      match AddressToken.readToEnd text.toList with
      | .error error => .error (.parse error)
      | .ok tokens => (ofTokens tokens).mapError .pattern := by
  rw [AddressToken.readToEnd_eq, parse]
  rcases AddressToken.readAll isBlank text.toList with error | ⟨tokens, _ | ⟨c, rest⟩⟩ <;> rfl

/-- A command is what its letter makes of the address before it, and none if there is no letter. -/
theorem Command.readHead_eq (chars : List Char) :
    readHead chars =
      match readRange chars with
      | .error error => .error (.parse error)
      | .ok (tokens, rest) =>
        (Address.ofTokens tokens).mapError .pattern >>= fun range =>
          match rest with
          | [] => .ok (.whole (.goto range), [])
          | c :: after =>
            if c = '\x7d' then .ok (.whole (.goto range), rest)
            else readArguments c range after := by
  rw [readRange_eq, readHead]
  rcases AddressToken.readAll isBlank chars with error | ⟨tokens, _ | ⟨c, rest⟩⟩
  · rfl
  · rfl
  · show (if c = '\x7d' then _ else if isLetter c then _ else _) = _
    dsimp only
    by_cases hbrace : c = '\x7d'
    · rw [if_pos hbrace, if_pos (.inl hbrace)]
      dsimp only
      simp only [if_pos hbrace]
      rfl
    · by_cases hletter : isLetter c = true
      · rw [if_neg hbrace, if_pos hletter, if_pos (.inr hletter)]
        dsimp only
        simp only [if_neg hbrace]
      · rw [if_neg hbrace, if_neg hletter, if_neg fun hboth => hboth.elim hbrace hletter]
        rfl

/-- An address is a program that only goes there. -/
theorem Command.parse_of_address {text : String} {address : Address}
    (h : Address.parse text = .ok address) : parse text = .ok (.goto address) := by
  rw [Address.parse_eq] at h
  cases htokens : AddressToken.readToEnd text.toList with
  | error error =>
    rw [htokens] at h
    cases h
  | ok tokens =>
    rw [htokens] at h
    have hhead : readHead text.toList = .ok (.whole (.goto address), []) := by
      rw [readHead_eq, readRange_of_readToEnd htokens]
      dsimp only at h ⊢
      rw [h]
      rfl
    have hcommand : readCommand (2 * text.toList.length + 2) text.toList =
        .ok (.goto address, []) := by
      rw [readCommand, hhead]
      rfl
    unfold parse
    dsimp only
    rw [hcommand]
    rfl

/-! ## Two dots -/

/-- A place is taken relative to a range of the text. -/
@[simp]
theorem SimpleAddress.evaluate_clamp (place : SimpleAddress) (text : Source) (dot : Selection) :
    place.evaluate text (dot.clamp text.size) = place.evaluate text dot := by
  unfold evaluate
  rw [Selection.clamp_of_isWithin (dot.clamp_isWithin text.size)]

/-- **Dot may lie outside of the text**: what an address names does not depend on whether dot is
brought into the text before. -/
theorem Address.evaluate_clamp (address : Address) (text : Source) (dot : Selection) :
    address.evaluate text (dot.clamp text.size) = address.evaluate text dot := by
  induction address generalizing dot with
  | simple place => rw [evaluate, evaluate, place.evaluate_clamp]
  | chain places =>
    cases places with
    | nil =>
      -- A chain without places is the range itself, which is brought into the text in any case.
      have hclamp := Selection.clamp_of_isWithin (dot.clamp_isWithin text.size)
      rw [evaluate, evaluate, List.foldlM_nil, List.foldlM_nil]
      show Except.ok ((dot.clamp text.size).clamp text.size) = Except.ok (dot.clamp text.size)
      rw [hclamp]
    | cons place rest =>
      rw [evaluate, evaluate, List.foldlM_cons, List.foldlM_cons, place.evaluate_clamp]
  | between left separator right hleft hright =>
    rw [evaluate, evaluate, hleft]
    cases separator with
    | comma =>
      dsimp only
      rw [hright]
    | semicolon => rfl

/-! ## Both ways -/

/-- What is left of a session when dot goes to a range, or to none. -/
def Session.goneTo (session : Session σ) :
    Except EditError Selection → Except EditError Unit × Session σ
  | .ok sel => (.ok (), { session with dot := sel, fresh := true })
  | .error error => (.error error, session.begun)

/-- Going to an address keeps the document. -/
@[simp]
theorem Session.document_goneTo (session : Session σ) (outcome : Except EditError Selection) :
    (session.goneTo outcome).2.document = session.document := by
  cases outcome <;> rfl

/-- **An address means the same alone and as a program.** What can be read as an address is read as
the command that goes there. As a program it takes dot to what the address names, seen from the dot
that the program was given, or fails in the same way; document, files and environment stay as they
are. With dot registered it does the same, and each registered selection is what it was. -/
theorem Session.interpret_address {text : String} {address : Address}
    (h : Address.parse text = .ok address) (env : Environment σ) (session : Session σ) :
    Command.parse text = .ok (.goto address) ∧
      session.interpret env text =
        session.goneTo (evaluateAddress text session.document.source session.dot) ∧
      ∃ selections,
        session.interpretRegistered env text =
          ((session.goneTo (evaluateAddress text session.document.source session.dot)).1,
            (session.goneTo (evaluateAddress text session.document.source session.dot)).2.keeping
              selections
              (session.goneTo (evaluateAddress text session.document.source session.dot)).2.dot) ∧
        ∀ handle, selections.get? handle = session.document.selections.get? handle := by
  -- As a command: the address is read by the same steps, and clamping dot first changes nothing.
  have hparse := Command.parse_of_address h
  have hevaluate : evaluateAddress text session.document.source session.dot =
      address.evaluate session.begun.document.source session.begun.dot := by
    have hclamp := address.evaluate_clamp session.document.source session.dot
    unfold evaluateAddress
    rw [h]
    exact hclamp.symm
  -- As a program: it fails in evaluating its address, or sets dot to a range of the text.
  have hplain : session.interpret env text =
      session.goneTo (evaluateAddress text session.document.source session.dot) := by
    rw [session.interpret_of_parse env hparse, Run.execute, hevaluate]
    cases hrange : address.evaluate session.begun.document.source session.begun.dot with
    | error error =>
      have hfails : (Run.evaluate address : Run σ Selection) session.begun =
          (.error error, session.begun) := by
        unfold Run.evaluate
        rw [hrange]
      rw [Run.bind_apply, hfails]
      rfl
    | ok sel =>
      have hwithin := Run.isWithin_of_evaluate hrange
      rw [Run.bind_ok (Run.evaluate_ok hrange), Run.bind_ok (Run.setDot_of_isWithin hwithin)]
      rfl
  refine ⟨hparse, hplain, ?_⟩
  -- With dot registered: the document is still the one that the selections were found in.
  obtain ⟨result, final, after, hfinal, hregistered, _, hextends, hknown, hlive⟩ :=
    session.exists_interpretRegistered env hparse
  rw [← hplain, hfinal]
  refine ⟨after, hregistered, fun handle => ?_⟩
  have hdocument : final.document = session.document := by
    have hgone := session.document_goneTo (evaluateAddress text session.document.source session.dot)
    rwa [← hplain, hfinal] at hgone
  have hsame := hextends.get?_eq (fun handle => by rw [hlive, hknown]) handle
  rw [hsame, hdocument]

/-- A search behind the first character, from a dot that lies behind the end of the text. -/
theorem Session.interpret_address_search :
    ∃ (env : Environment Unit) (session : Session Unit) (address : Address),
      session.document.content = "ab\nb".toList ∧ session.dot = ⟨7, 9⟩ ∧
      Address.parse "#1 ; /b/" = .ok address ∧
      Command.parse "#1 ; /b/" = .ok (.goto address) ∧
      session.interpret env "#1 ; /b/" = (.ok (), { session with dot := ⟨1, 2⟩ }) := by
  let env : Environment Unit := .silent
  let session : Session Unit := .onText "ab\nb" ⟨7, 9⟩
  let wanted : Search := ⟨"b", false,
    ⟨"b", #[.split [3, 1], .oneOf .any, .jump 0, .save 0, .char 'b', .save 1, .accept], 2, false⟩,
    ⟨"b", #[.split [3, 1], .oneOf .any, .jump 0, .save 0, .char 'b', .save 1, .accept], 2, true⟩⟩
  let address : Address :=
    .between (.simple ⟨none, .char 1⟩) .semicolon (.simple ⟨some .plus, .search wanted⟩)
  have hcontent : session.document.content = "ab\nb".toList := Session.content_onText _ _
  have hparse : Address.parse "#1 ; /b/" = .ok address := by
    set_option maxRecDepth 2000 in cbv
  have hevaluate : evaluateAddress "#1 ; /b/" session.document.source session.dot = .ok ⟨1, 2⟩ := by
    set_option maxRecDepth 2000 in cbv
  obtain ⟨hcommand, hinterpret, _⟩ := Session.interpret_address hparse env session
  rw [hevaluate] at hinterpret
  exact ⟨env, session, address, hcontent, rfl, hparse, hcommand, hinterpret⟩

end Emend

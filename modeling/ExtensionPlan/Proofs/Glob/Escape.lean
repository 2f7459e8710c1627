import ExtensionPlan.Glob.Search
import ExtensionPlan.Proofs.Path.Spelling
import ExtensionPlan.Proofs.Run

/-!
# ExtensionPlan.Proofs.Glob.Escape

**Escaped text stands for itself.** A directory is searched by a pattern that begins with its
escaped spelling and ends with one component of its own (`PathPattern.read_escape_append`). The
spelling is read as one token for each character (`tokensFrom_escape_append`), whatever it holds,
and is cut where its separators were (`pieces_escape`), so the components before the last one each
stand for a piece of the directory.

A name begins with what such tokens stand for, and the tokens after them have the rest to
themselves (`covers_map_escapeToken_append`).
-/

namespace ExtensionPlan.Glob

/-! ### Tokens of escaped text -/

/-- The token that an escaped character is read as. -/
def escapeToken (c : Char) : Token := if isMeta c then .oneOf [.single c] else .char c

theorem escape_cons (c : Char) (text : List Char) :
    escape (c :: text) = escapeChar c ++ escape text := List.flatMap_cons

theorem escape_append (front back : List Char) :
    escape (front ++ back) = escape front ++ escape back := List.flatMap_append

/-- That a text is without characters of meaning can be computed. -/
theorem literal_of_all {text : List Char} (h : (text.all fun c => !isMeta c) = true) :
    ∀ c ∈ text, isMeta c = false := by
  simpa using h

/-- Text without characters of meaning needs no escaping. -/
theorem escape_eq_self {text : List Char} (h : ∀ c ∈ text, isMeta c = false) :
    escape text = text := by
  induction text with
  | nil => rfl
  | cons c rest ih =>
      have hc : escapeChar c = [c] := by simp [escapeChar, h c List.mem_cons_self]
      rw [escape_cons, hc, ih fun d hd => h d (List.mem_cons_of_mem c hd)]
      rfl

theorem escapeChar_ne_nil (c : Char) : escapeChar c ≠ [] := by
  unfold escapeChar
  split <;> simp

/-- A class that does not begin with a negation ends at the next bracket that closes. -/
theorem bracketToken_of_ne {a : Char} (ha : a ≠ '!') (position : Nat) (others : List Char) :
    bracketToken position (a :: others) =
      match others.idxOf? ']' with
      | some n => .ok (.oneOf (membersFrom (a :: others.take n)), n + 2)
      | none => .error ⟨position, .range⟩ := by
  unfold bracketToken
  split
  · next heq => exact absurd (List.cons.inj heq).1 ha
  · next heq => exact absurd (List.cons.inj heq).1 ha
  · next heq => cases heq
  · next heq =>
    cases heq
    rfl

/-- A bracket around one character is a class of it alone, and closes right after. -/
theorem bracketToken_single {c : Char} (hc : c ≠ '!') (position : Nat) (rest : List Char) :
    bracketToken position (c :: ']' :: rest) = .ok (.oneOf [.single c], 2) := by
  rw [bracketToken_of_ne hc]
  simp [List.idxOf?_cons, membersFrom]

/-- One escaped character is one token, and reading goes on after it. -/
theorem tokensFrom_escapeChar_append (c : Char) (rest : List Char) (position : Nat)
    (previous : Option Char) :
    tokensFrom 0 position previous (escapeChar c ++ rest) =
      (tokensFrom 0 (position + (escapeChar c).length) (escapeChar c).getLast? rest).map
        (escapeToken c :: ·) := by
  cases hmeta : isMeta c with
  | true =>
      have hc : c ≠ '!' := by
        rintro rfl
        cases hmeta
      have htoken : tokenAt position previous '[' (c :: ']' :: rest) =
          .ok (.oneOf [.single c], 2) := bracketToken_single hc position rest
      have hchar : escapeChar c = ['[', c, ']'] := by simp [escapeChar, hmeta]
      have hread : escapeToken c = .oneOf [.single c] := by simp [escapeToken, hmeta]
      rw [hchar, hread]
      simp only [List.cons_append, List.nil_append, tokensFrom, htoken]
      rfl
  | false =>
      have htoken : tokenAt position previous c rest = .ok (.char c, 0) := by
        simp only [isMeta, Bool.or_eq_false_iff, beq_eq_false_iff_ne] at hmeta
        obtain ⟨⟨⟨hquestion, hstar⟩, hopen⟩, -⟩ := hmeta
        simp only [tokenAt, hquestion, hstar, hopen, if_false]
      have hchar : escapeChar c = [c] := by simp [escapeChar, hmeta]
      have hread : escapeToken c = .char c := by simp [escapeToken, hmeta]
      rw [hchar, hread]
      simp only [List.cons_append, List.nil_append, tokensFrom, htoken]
      rfl

/-- Escaped text is read as a token for each of its characters. -/
theorem tokensFrom_escape_append (text rest : List Char) (position : Nat)
    (previous : Option Char) :
    tokensFrom 0 position previous (escape text ++ rest) =
      (tokensFrom 0 (position + (escape text).length) ((escape text).getLast?.or previous)
        rest).map (text.map escapeToken ++ ·) := by
  induction text generalizing position previous with
  | nil =>
      show tokensFrom 0 position previous rest =
        (tokensFrom 0 position previous rest).map fun tokens => tokens
      cases tokensFrom 0 position previous rest with
      | error e => rfl
      | ok tokens => rfl
  | cons c text ih =>
      -- the character before what follows, and its place, are those after all of the text
      have hlast : (escape (c :: text)).getLast?.or previous =
          (escape text).getLast?.or (escapeChar c).getLast? := by
        have hsome := List.getLast?_eq_some_getLast (escapeChar_ne_nil c)
        rw [escape_cons, List.getLast?_append, hsome, Option.or_assoc, Option.some_or]
      have hlength : position + (escape (c :: text)).length =
          position + (escapeChar c).length + (escape text).length := by
        rw [escape_cons, List.length_append, Nat.add_assoc]
      rw [hlast, hlength, escape_cons, List.append_assoc, tokensFrom_escapeChar_append, ih]
      cases tokensFrom 0 (position + (escapeChar c).length + (escape text).length)
          ((escape text).getLast?.or (escapeChar c).getLast?) rest with
      | error e => rfl
      | ok tokens => rfl

theorem tokens_escape (text : List Char) : tokens (escape text) = .ok (text.map escapeToken) := by
  have h := tokensFrom_escape_append text [] 0 none
  rw [List.append_nil] at h
  rw [tokens, h]
  simp [tokensFrom, Except.map]

/-! ### Reading on from another place -/

/-- The place of a star is told in faults only. -/
theorem starToken_eq_ok {position place : Nat} {previous : Option Char} {rest : List Char}
    {read : Token × Nat} (h : starToken position previous rest = .ok read) :
    starToken place previous rest = .ok read := by
  unfold starToken at h ⊢
  split at h
  · cases h
  · split at h
    · next hprevious =>
      rw [if_pos hprevious]
      split at h
      · exact h
      · exact h
      · cases h
    · cases h
  · exact h

theorem bracketToken_eq_ok {position place : Nat} {rest : List Char} {read : Token × Nat}
    (h : bracketToken position rest = .ok read) : bracketToken place rest = .ok read := by
  unfold bracketToken at h ⊢
  split at h
  · split at h
    · exact h
    · cases h
  · cases h
  · cases h
  · split at h
    · exact h
    · cases h

theorem tokenAt_eq_ok {position place : Nat} {previous : Option Char} {c : Char}
    {rest : List Char} {read : Token × Nat} (h : tokenAt position previous c rest = .ok read) :
    tokenAt place previous c rest = .ok read := by
  unfold tokenAt at h ⊢
  split
  · rwa [if_pos ‹_›] at h
  · rw [if_neg ‹_›] at h
    split
    · rw [if_pos ‹_›] at h
      exact starToken_eq_ok h
    · rw [if_neg ‹_›] at h
      split
      · rw [if_pos ‹_›] at h
        exact bracketToken_eq_ok h
      · rwa [if_neg ‹_›] at h

/-- A pattern that can be read can be read from any place on. -/
theorem tokensFrom_eq_ok {skip position place : Nat} {previous : Option Char}
    {text : List Char} {read : List Token} (h : tokensFrom skip position previous text = .ok read) :
    tokensFrom skip place previous text = .ok read := by
  induction text generalizing skip position place previous read with
  | nil => exact h
  | cons c rest ih =>
      cases skip with
      | succ n => exact ih h
      | zero =>
          rw [tokensFrom] at h ⊢
          obtain ⟨⟨token, used⟩, htoken, h⟩ := bind_eq_ok_iff.1 h
          obtain ⟨others, hothers, h⟩ := bind_eq_ok_iff.1 h
          rw [bind_eq_ok_iff]
          exact ⟨_, tokenAt_eq_ok htoken, bind_eq_ok_iff.2 ⟨others, ih hothers, h⟩⟩

/-- What follows a separator is read like a beginning. -/
theorem tokensFrom_separator_eq_ok_iff {text : List Char} {read : List Token} (place : Nat) :
    tokensFrom 0 place (some '/') text = .ok read ↔ tokens text = .ok read := by
  have hbeginning : tokensFrom 0 place (some '/') text = tokensFrom 0 place none text := by
    cases text with
    | nil => rfl
    | cons c rest =>
        have hsame : tokenAt place (some '/') c rest = tokenAt place none c rest := by
          simp [tokenAt, starToken]
        rw [tokensFrom, tokensFrom, hsame]
  rw [hbeginning, tokens]
  exact ⟨tokensFrom_eq_ok, tokensFrom_eq_ok⟩

/-! ### Components -/

/-- The component that a piece of a directory becomes. -/
def Segment.ofPiece (piece : List Char) : Segment := .ofTokens (piece.map escapeToken)

theorem escapeToken_ne_anyDirectories (c : Char) : escapeToken c ≠ .anyDirectories := by
  unfold escapeToken
  split <;> simp

theorem mapM_char?_of_plain {piece : List Char} (h : ∀ c ∈ piece, isMeta c = false) :
    (piece.map escapeToken).mapM Token.char? = some piece := by
  induction piece with
  | nil => rfl
  | cons c rest ih =>
      have hc : escapeToken c = .char c := by simp [escapeToken, h c List.mem_cons_self]
      rw [List.map_cons, List.mapM_cons, hc, ih fun d hd => h d (List.mem_cons_of_mem c hd)]
      rfl

theorem mapM_char?_of_meta {piece : List Char} (h : ∃ c ∈ piece, isMeta c = true) :
    (piece.map escapeToken).mapM Token.char? = none := by
  induction piece with
  | nil => simp at h
  | cons c rest ih =>
      rw [List.map_cons, List.mapM_cons]
      cases hc : isMeta c with
      | true => simp [escapeToken, hc, Token.char?]
      | false =>
          obtain ⟨d, hd, hmeta⟩ := h
          have hrest : ∃ d ∈ rest, isMeta d = true := by
            rcases List.mem_cons.1 hd with rfl | hd
            · simp [hc] at hmeta
            · exact ⟨d, hd, hmeta⟩
          simp [escapeToken, hc, Token.char?, ih hrest]

theorem contains_anyDirectories_map (piece : List Char) :
    (piece.map escapeToken).contains .anyDirectories = false := by
  rw [← Bool.not_eq_true, List.contains_iff_mem, List.mem_map]
  intro h
  obtain ⟨c, -, hc⟩ := h
  exact escapeToken_ne_anyDirectories c hc

/-- A piece without characters of meaning is looked up. -/
theorem Segment.ofPiece_of_plain {piece : List Char} (h : ∀ c ∈ piece, isMeta c = false) :
    ofPiece piece = .literal piece := by
  rw [ofPiece, ofTokens, contains_anyDirectories_map, mapM_char?_of_plain h]
  rfl

/-- A piece with one is matched against names. -/
theorem Segment.ofPiece_of_meta {piece : List Char} (h : ∃ c ∈ piece, isMeta c = true) :
    ofPiece piece = .wild (piece.map escapeToken) := by
  rw [ofPiece, ofTokens, contains_anyDirectories_map, mapM_char?_of_meta h]
  rfl

/-- The pieces that lead elsewhere than to an entry are looked up, never matched. -/
theorem isName_of_meta {piece : List Char} (h : ∃ c ∈ piece, isMeta c = true)
    (whole : '/' ∉ piece) : IsName piece := by
  obtain ⟨c, hc, hmeta⟩ := h
  have hother : ∀ {text : List Char}, (∀ d ∈ text, isMeta d = false) → piece ≠ text := by
    rintro text hplain rfl
    rw [hplain c hc] at hmeta
    cases hmeta
  have hdot : isMeta '.' = false := rfl
  exact ⟨hother (by simp), hother (by simp [hdot]), hother (by simp [hdot]), whole⟩

/-- A piece never stands for any number of directories. -/
theorem Segment.ofPiece_ne_everywhere (piece : List Char) : ofPiece piece ≠ .everywhere := by
  by_cases h : ∃ c ∈ piece, isMeta c = true
  · rw [ofPiece_of_meta h]
    exact nofun
  · rw [ofPiece_of_plain (by simpa using h)]
    exact nofun

theorem Segment.ne_everywhere_of_mem_map_ofPiece {pieces : List (List Char)} {segment : Segment}
    (h : segment ∈ pieces.map ofPiece) : segment ≠ .everywhere := by
  obtain ⟨piece, -, rfl⟩ := List.mem_map.1 h
  exact ofPiece_ne_everywhere piece

/-- No run of `everywhere`, nothing to be made one. -/
theorem collapse_append {front : List Segment} (h : ∀ segment ∈ front, segment ≠ .everywhere)
    (back : List Segment) : collapse (front ++ back) = front ++ collapse back := by
  induction front with
  | nil => rfl
  | cons segment front ih =>
      have hfront := ih fun other hother => h other (List.mem_cons_of_mem segment hother)
      cases hsegment : segment with
      | everywhere => exact absurd hsegment (h segment List.mem_cons_self)
      | literal name =>
          rw [List.cons_append, collapse, hfront]
          · rfl
          · intro rest hsame
            cases hsame
      | wild tokens =>
          rw [List.cons_append, collapse, hfront]
          · rfl
          · intro rest hsame
            cases hsame

theorem collapse_singleton (segment : Segment) : collapse [segment] = [segment] := by
  cases segment <;> rfl

/-- Escaping leaves the separators where they are. -/
theorem pieces_escape (text : List Char) :
    Text.pieces (· == '/') (escape text) = (Text.pieces (· == '/') text).map escape := by
  induction text with
  | nil => rfl
  | cons c rest ih =>
      obtain ⟨first, others, hrest⟩ :=
        List.exists_cons_of_ne_nil (Text.pieces_ne_nil (· == '/') rest)
      rw [hrest, List.map_cons] at ih
      cases hc : c == '/' with
      | true =>
          have hchar : escapeChar c = [c] := by
            rw [beq_iff_eq] at hc
            subst hc
            rfl
          rw [escape_cons, hchar, List.singleton_append, Text.pieces, Text.pieces, hc, ih, hrest]
          rfl
      | false =>
          have hpiece : Text.pieces (· == '/') (c :: rest) = (c :: first) :: others := by
            rw [Text.pieces, hc, hrest]
            rfl
          rw [hpiece, List.map_cons, escape_cons, escape_cons]
          -- the characters around an escaped one are no separators either
          unfold escapeChar
          split
          · simp [Text.pieces, hc, ih]
          · simp [Text.pieces, hc, ih]

theorem componentsOf_of_whole {last : List Char} (whole : '/' ∉ last) (filled : last ≠ []) :
    componentsOf last = [last] := by
  simp [componentsOf, Text.pieces_of_not_mem whole, filled]

theorem componentsOf_escape_append (directory : List Char) {last : List Char}
    (whole : '/' ∉ last) (filled : last ≠ []) :
    componentsOf (escape directory ++ '/' :: last) =
      (Text.pieces (· == '/') directory).map escape ++ [last] := by
  have hpieces : Text.pieces (· == '/') (escape directory ++ '/' :: last) =
      (Text.pieces (· == '/') directory).map escape ++ [last] := by
    rw [Text.pieces_append_cons (by rfl), pieces_escape, Text.pieces_of_not_mem whole]
  simp [componentsOf, hpieces, filled]

/-- A pattern that ends in a separator has no component after it. -/
theorem componentsOf_escape_separator (directory : List Char) :
    componentsOf (escape directory ++ ['/']) = (Text.pieces (· == '/') directory).map escape := by
  have hempty : Text.pieces (· == '/') [] = [[]] := rfl
  have hpieces : Text.pieces (· == '/') (escape directory ++ ['/']) =
      (Text.pieces (· == '/') directory).map escape ++ [[]] := by
    rw [Text.pieces_append_cons (by rfl), pieces_escape, hempty]
  simp [componentsOf, hpieces]

/-! ### Patterns below a directory -/

/-- The pieces of a directory that are looked for one below the other. -/
def directoryPieces : List Char → List (List Char)
  | [] => []
  | c :: rest => Text.pieces (· == '/') (if c == '/' then rest else c :: rest)

/-- Is a directory of this spelling looked for from the root? The empty one is. -/
def isRooted : List Char → Bool
  | [] => true
  | c :: _ => c == '/'

/-- The components of a pattern below a directory, once the root is taken off. -/
theorem componentsOf_below (directory : List Char) {last : List Char} (whole : '/' ∉ last)
    (filled : last ≠ []) :
    componentsOf (if isRooted directory then (escape directory ++ '/' :: last).drop 1
      else escape directory ++ '/' :: last) =
      (directoryPieces directory).map escape ++ [last] := by
  cases directory with
  | nil => exact componentsOf_of_whole whole filled
  | cons c rest =>
      cases hc : c == '/' with
      | true =>
          rw [beq_iff_eq] at hc
          subst hc
          exact componentsOf_escape_append rest whole filled
      | false =>
          rw [isRooted, directoryPieces, hc]
          exact componentsOf_escape_append (c :: rest) whole filled

theorem mapM_ofPiece (pieces : List (List Char)) :
    ((pieces.map escape).mapM fun component =>
      return Segment.ofTokens (← tokens component) : Except PatternError (List Segment)) =
        .ok (pieces.map Segment.ofPiece) := by
  rw [mapM_eq_ok_iff, List.forall₂_map_left_iff, List.forall₂_map_right_iff, List.forall₂_same]
  intro piece _
  rw [tokens_escape]
  rfl

/-- What follows an escaped directory and a separator is read on from there. -/
theorem exists_tokens_escape_append_separator (directory text : List Char) : ∃ place,
    tokens (escape directory ++ '/' :: text) =
      (tokensFrom 0 place (some '/') text).map ((directory ++ ['/']).map escapeToken ++ ·) := by
  have hseparator : escape ['/'] = ['/'] := rfl
  have htext : escape directory ++ '/' :: text = escape (directory ++ ['/']) ++ text := by
    rw [escape_append, hseparator, List.append_assoc, List.singleton_append]
  have hlast : (escape (directory ++ ['/'])).getLast? = some '/' := by
    rw [escape_append, hseparator, List.getLast?_concat]
  refine ⟨0 + (escape (directory ++ ['/'])).length, ?_⟩
  rw [htext, tokens, tokensFrom_escape_append, hlast, Option.some_or]

/-- The pattern as a whole is read like its two parts. -/
theorem tokens_escape_append_separator (directory : List Char) {last : List Char}
    {read : List Token} (h : tokens last = .ok read) :
    tokens (escape directory ++ '/' :: last) =
      .ok ((directory ++ ['/']).map escapeToken ++ read) := by
  obtain ⟨place, htokens⟩ := exists_tokens_escape_append_separator directory last
  rw [htokens, (tokensFrom_separator_eq_ok_iff place).2 h]
  rfl

theorem head?_escape_append_separator (directory last : List Char) :
    ((escape directory ++ '/' :: last).head? == some '/') = isRooted directory := by
  cases directory with
  | nil => rfl
  | cons c rest =>
      rw [escape_cons, isRooted]
      unfold escapeChar
      split
      · next hmeta =>
        have hc : (c == '/') = false := by
          rw [beq_eq_false_iff_ne]
          rintro rfl
          cases hmeta
        rw [hc]
        rfl
      · rfl

/-- A pattern is what its components are read as. -/
theorem PathPattern.read_of_components {text rest : List Char} {read : List Token}
    {components : List (List Char)} {segments : List Segment} {rooted : Bool}
    (hread : tokens text = .ok read) (hrooted : (text.head? == some '/') = rooted)
    (hrest : (if rooted then text.drop 1 else text) = rest) (hfilled : rest ≠ [])
    (hcomponents : componentsOf rest = components)
    (hsegments : (components.mapM fun component =>
      return Segment.ofTokens (← tokens component) : Except PatternError (List Segment)) =
        .ok segments) :
    PathPattern.read text = .ok ⟨collapse segments, rooted, text.getLast? == some '/'⟩ := by
  have hempty : rest.isEmpty = false := by
    rw [← Bool.not_eq_true, List.isEmpty_iff]
    exact hfilled
  unfold PathPattern.read
  rw [bind_eq_ok_iff]
  refine ⟨_, hread, ?_⟩
  simp only [hrooted, hrest, hempty, hcomponents, Bool.false_eq_true, if_false]
  rw [bind_eq_ok_iff]
  exact ⟨segments, hsegments, rfl⟩

/-- **A pattern below a directory.** The pattern is read whatever the directory is called. Its
components are the pieces of the directory, each standing for itself, and the last one. -/
theorem PathPattern.read_escape_append (directory : List Char) {last : List Char}
    {read : List Token} (whole : '/' ∉ last) (filled : last ≠ []) (h : tokens last = .ok read) :
    PathPattern.read (escape directory ++ '/' :: last) =
      .ok ⟨(directoryPieces directory).map Segment.ofPiece ++ [Segment.ofTokens read],
        isRooted directory, false⟩ := by
  have hends : ((escape directory ++ '/' :: last).getLast? == some '/') = false := by
    have hlast : (escape directory ++ '/' :: last).getLast? = some (last.getLast filled) := by
      simp [List.getLast?_append, List.getLast?_cons, List.getLast?_eq_some_getLast filled]
    rw [hlast, beq_eq_false_iff_ne]
    intro heq
    exact whole (Option.some.inj heq ▸ List.getLast_mem filled)
  have hcomponents := componentsOf_below directory whole filled
  have hfilled : (if isRooted directory then (escape directory ++ '/' :: last).drop 1
      else escape directory ++ '/' :: last) ≠ [] := by
    intro hempty
    rw [hempty] at hcomponents
    exact List.append_ne_nil_of_right_ne_nil _ (List.cons_ne_nil last []) hcomponents.symm
  have hsegments : (((directoryPieces directory).map escape ++ [last]).mapM fun component =>
      return Segment.ofTokens (← tokens component) : Except PatternError (List Segment)) =
        .ok ((directoryPieces directory).map Segment.ofPiece ++ [Segment.ofTokens read]) := by
    rw [List.mapM_append, mapM_ofPiece]
    simp [h, bind, Except.bind, pure, Except.pure]
  rw [read_of_components (tokens_escape_append_separator directory h)
    (head?_escape_append_separator directory last) rfl hfilled hcomponents hsegments, hends,
    collapse_append fun segment hsegment => Segment.ne_everywhere_of_mem_map_ofPiece hsegment,
    collapse_singleton]

/-- A pattern for a directory itself has the pieces of the directory for its components. -/
theorem PathPattern.read_escape_separator {directory : List Char} (filled : directory ≠ []) :
    PathPattern.read (escape directory ++ ['/']) =
      .ok ⟨(directoryPieces directory).map Segment.ofPiece, isRooted directory, true⟩ := by
  have hends : ((escape directory ++ ['/']).getLast? == some '/') = true := by simp
  have hrest : (if isRooted directory then (escape directory ++ ['/']).drop 1
      else escape directory ++ ['/']) ≠ [] ∧
      componentsOf (if isRooted directory then (escape directory ++ ['/']).drop 1
        else escape directory ++ ['/']) = (directoryPieces directory).map escape := by
    cases directory with
    | nil => exact absurd rfl filled
    | cons c rest =>
        cases hc : c == '/' with
        | true =>
            rw [beq_iff_eq] at hc
            subst hc
            exact ⟨List.append_ne_nil_of_right_ne_nil _ (List.cons_ne_nil _ _),
              componentsOf_escape_separator rest⟩
        | false =>
            rw [isRooted, directoryPieces, hc]
            exact ⟨List.append_ne_nil_of_right_ne_nil _ (List.cons_ne_nil _ _),
              componentsOf_escape_separator (c :: rest)⟩
  have hnone : ∀ segment ∈ (directoryPieces directory).map Segment.ofPiece,
      segment ≠ .everywhere :=
    fun segment hsegment => Segment.ne_everywhere_of_mem_map_ofPiece hsegment
  have hall := collapse_append hnone []
  rw [List.append_nil, collapse, List.append_nil] at hall
  have htokens : tokens [] = .ok [] := rfl
  rw [read_of_components (tokens_escape_append_separator directory htokens)
    (head?_escape_append_separator directory []) rfl hrest.1 hrest.2 (mapM_ofPiece _), hends, hall]

/-! ### Names that begin so -/

theorem isSequence_escapeToken (c : Char) : (escapeToken c).isSequence = false := by
  unfold escapeToken
  split <;> rfl

/-- The token of an escaped character stands for that character. -/
theorem holds_escapeToken (c d : Char) : (escapeToken c).holds d = (d == c) := by
  unfold escapeToken
  split
  · simp [Token.holds, Member.holds]
  · rfl

/-- Tokens after those of a text have to themselves what a name has after that text. -/
theorem covers_map_escapeToken_append (text : List Char) (others : List Token)
    (name : List Char) :
    covers (text.map escapeToken ++ others) name = true ↔
      ∃ rest, name = text ++ rest ∧ covers others rest = true := by
  induction text generalizing name with
  | nil => simp
  | cons c text ih =>
      rw [List.map_cons, List.cons_append]
      cases name with
      | nil => simp [covers_single_nil (isSequence_escapeToken c)]
      | cons d name =>
          rw [covers_single_cons (isSequence_escapeToken c), holds_escapeToken, Bool.and_eq_true,
            beq_iff_eq, ih]
          constructor
          · intro h
            obtain ⟨rfl, rest, rfl, hrest⟩ := h
            exact ⟨rest, rfl, hrest⟩
          · intro h
            obtain ⟨rest, heq, hrest⟩ := h
            obtain ⟨rfl, rfl⟩ := List.cons.inj heq
            exact ⟨rfl, rest, rfl, hrest⟩

/-- Tokens of a text stand for that text and nothing else. -/
theorem covers_map_escapeToken {text name : List Char} :
    covers (text.map escapeToken) name = true ↔ name = text := by
  have h := covers_map_escapeToken_append text [] name
  simpa [covers_nil] using h

/-! ### Names that end so -/

/-- A star and a text after it are read as that. -/
theorem tokens_star {text : List Char} (h : ∀ c ∈ text, isMeta c = false) :
    tokens ('*' :: text) = .ok (.anySequence :: text.map escapeToken) := by
  have hstar : starToken 0 none text = .ok (.anySequence, 0) := by
    cases text with
    | nil => rfl
    | cons c rest =>
        have hc : c ≠ '*' := by
          rintro rfl
          exact absurd (h '*' List.mem_cons_self) (by decide)
        simp [starToken, hc]
  have htoken : tokenAt 0 none '*' text = .ok (.anySequence, 0) := hstar
  have hrest := tokensFrom_escape_append text [] 1 (some '*')
  rw [List.append_nil, escape_eq_self h] at hrest
  rw [tokens, tokensFrom, htoken]
  show (tokensFrom 0 1 (some '*') text >>= fun read => .ok (.anySequence :: read)) = _
  rw [hrest]
  simp [tokensFrom, Except.map, bind, Except.bind]

theorem Segment.ofTokens_star (text : List Char) :
    ofTokens (.anySequence :: text.map escapeToken) =
      .wild (.anySequence :: text.map escapeToken) := by
  have hnone : (Token.anySequence :: text.map escapeToken).contains .anyDirectories = false := by
    rw [List.contains_cons, contains_anyDirectories_map]
    rfl
  rw [ofTokens, hnone, if_neg Bool.false_ne_true, List.mapM_cons]
  rfl

/-- A star and a text after it stand for the names that end in the text. -/
theorem covers_star (text name : List Char) :
    covers (.anySequence :: text.map escapeToken) name = true ↔ text <:+ name := by
  induction name with
  | nil =>
      rw [covers_sequence_nil (by rfl), covers_map_escapeToken, List.suffix_nil, eq_comm]
  | cons c name ih =>
      rw [covers_sequence_cons (by rfl), Bool.or_eq_true, covers_map_escapeToken, ih,
        List.suffix_cons_iff, eq_comm]

end ExtensionPlan.Glob

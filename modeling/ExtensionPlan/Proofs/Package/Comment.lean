import ExtensionPlan.Proofs.Package.Assignment

/-!
# ExtensionPlan.Proofs.Package.Comment

**Comments are read like the rest.** An assignment in a comment counts as any other does
(`Assignment.not_ignoresComments`). So whatever a comment at some place says makes no difference
only where it could not: where the text after it decides the flags by itself, whatever stands
before it (`Assignment.ignoresCommentAt_iff`). A text does so if it assigns the variable, unless
the value that it assigns last has a parenthesis (`Assignment.decides_iff`).

What stands before the text may run over many lines and a comment may not, which is why it is shown
first that a line break can be replaced by a space (`Assignment.flags_map`): only white space is
changed to other white space, and neither the search nor what is made of a value tells one from the
other.
-/

namespace ExtensionPlan

/-! ### White space for white space -/

/-- Characters are changed from white space to white space at most. -/
def Respaces (f : Char → Char) : Prop :=
  ∀ c, f c = c ∨ (Text.isBlank c = true ∧ Text.isBlank (f c) = true)

namespace Respaces

variable {f : Char → Char}

theorem isBlank_apply (h : Respaces f) (c : Char) : Text.isBlank (f c) = Text.isBlank c := by
  rcases h c with hc | ⟨hc, hfc⟩
  · rw [hc]
  · rw [hc, hfc]

/-- Any other character stays where it is. -/
theorem apply_eq_iff (h : Respaces f) {c mark : Char} (hmark : Text.isBlank mark = false) :
    f c = mark ↔ c = mark := by
  rcases h c with hc | ⟨hc, hfc⟩
  · rw [hc]
  · constructor
    · rintro rfl
      rw [hfc] at hmark
      cases hmark
    · rintro rfl
      rw [hc] at hmark
      cases hmark

theorem isBlank_comp (h : Respaces f) : Text.isBlank ∘ f = Text.isBlank :=
  funext fun c => h.isBlank_apply c

theorem bne_comp (h : Respaces f) {mark : Char} (hmark : Text.isBlank mark = false) :
    (· != mark) ∘ f = (· != mark) := by
  funext c
  rw [Function.comp_apply, Bool.eq_iff_iff, bne_iff_ne, bne_iff_ne, ne_eq, ne_eq,
    h.apply_eq_iff hmark]

/-- Words are cut at white space of any kind. -/
theorem words_map (h : Respaces f) (cs : List Char) : Text.words (cs.map f) = Text.words cs := by
  have hpieces : Text.pieces Text.isBlank (cs.map f) = Text.pieces Text.isBlank cs := by
    induction cs with
    | nil => rfl
    | cons c cs ih =>
        rw [List.map_cons, Text.pieces, Text.pieces, h.isBlank_apply, ih]
        rcases h c with hc | ⟨hc, -⟩
        · rw [hc]
        · rw [if_pos hc, if_pos hc]
  rw [Text.words, Text.words, hpieces]

end Respaces

namespace Assignment

open Text (isBlank)

theorem after?_cons (mark : List Char) (m c : Char) (cs : List Char) :
    after? (m :: mark) (c :: cs) = if c = m then after? mark cs else none := by
  unfold after?
  by_cases hc : c = m
  · simp [hc, List.isPrefixOf]
  · simp [hc, List.isPrefixOf, Ne.symm hc]

section Respaced

variable {f : Char → Char} (h : Respaces f)

include h

theorem after?_map {mark : List Char} (hmark : ∀ c ∈ mark, isBlank c = false) (cs : List Char) :
    after? mark (cs.map f) = (after? mark cs).map (List.map f) := by
  induction mark generalizing cs with
  | nil => rfl
  | cons m mark ih =>
      cases cs with
      | nil => rfl
      | cons c cs =>
          have hrest := ih (fun c hc => hmark c (List.mem_cons_of_mem m hc)) cs
          have hm := hmark m List.mem_cons_self
          rw [List.map_cons, after?_cons, after?_cons, hrest]
          by_cases hc : c = m
          · rw [if_pos hc, if_pos ((h.apply_eq_iff hm).2 hc)]
          · rw [if_neg hc, if_neg fun hfc => hc ((h.apply_eq_iff hm).1 hfc)]
            rfl

theorem afterBlanks_map {α β : Type} {next : List Char → Option α}
    {next' : List Char → Option β} {g : α → β}
    (hnext : ∀ cs, next' (cs.map f) = (next cs).map g) (cs : List Char) :
    afterBlanks next' (cs.map f) = (afterBlanks next cs).map g := by
  induction cs with
  | nil => exact hnext []
  | cons c cs ih =>
      have hhere := hnext (c :: cs)
      rw [List.map_cons] at hhere ⊢
      rw [afterBlanks, afterBlanks, h.isBlank_apply, ih, hhere]
      split
      · cases afterBlanks next cs <;> rfl
      · rfl

theorem nameAndValue?_map {name : List Char} (hname : IsVariable name) (cs : List Char) :
    nameAndValue? name (cs.map f) =
      (nameAndValue? name cs).map (Prod.map (List.map f) (List.map f)) := by
  have hquote : isBlank '"' = false := by decide
  have hmark : ∀ c, isBlank c = false → ∀ d ∈ [c], isBlank d = false := by simp
  unfold nameAndValue?
  rw [after?_map h hname.unbroken]
  cases after? name cs with
  | none => rfl
  | some named =>
      have hhead : (named.map f).head?.any isBlank = named.head?.any isBlank := by
        cases named with
        | nil => rfl
        | cons c named => exact h.isBlank_apply c
      rw [Option.map_some]
      dsimp only [Option.bind_eq_bind, Option.bind_some]
      rw [hhead, List.dropWhile_map, h.isBlank_comp, after?_map h (hmark '"' hquote)]
      split
      · cases after? ['"'] (named.dropWhile isBlank) with
        | none => rfl
        | some quoted =>
            rw [Option.map_some]
            dsimp only [Option.bind_some]
            rw [List.dropWhile_map, List.takeWhile_map, h.bne_comp hquote,
              after?_map h (hmark '"' hquote)]
            cases after? ['"'] (quoted.dropWhile (· != '"')) with
            | none => rfl
            | some closed =>
                rw [Option.map_some]
                dsimp only [Option.bind_some]
                rw [List.dropWhile_map, h.isBlank_comp, after?_map h (hmark ')' (by decide))]
                cases after? [')'] (closed.dropWhile isBlank) <;> rfl
      · rfl

theorem at?_map {name : List Char} (hname : IsVariable name) (cs : List Char) :
    at? name (cs.map f) = (at? name cs).map (Prod.map (List.map f) (List.map f)) := by
  have hset : ∀ c ∈ "set(".toList, isBlank c = false := by
    have hall : ("set(".toList.all fun c => !isBlank c) = true := by decide
    intro c hc
    simpa using List.all_eq_true.1 hall c hc
  unfold at?
  rw [after?_map h hset]
  cases after? "set(".toList cs with
  | none => rfl
  | some opened => exact afterBlanks_map h (nameAndValue?_map h hname) opened

/-- The search finds the same, but for the white space in it. -/
theorem lastFrom_map {name : List Char} (hname : IsVariable name) (skip : Nat)
    (latest : Option (List Char)) (cs : List Char) :
    lastFrom name skip (latest.map (List.map f)) (cs.map f) =
      (lastFrom name skip latest cs).map (List.map f) := by
  induction cs generalizing skip latest with
  | nil => rfl
  | cons c cs ih =>
      cases skip with
      | succ skip => exact ih skip latest
      | zero =>
          have hhere := at?_map h hname (c :: cs)
          rw [List.map_cons] at hhere ⊢
          rw [lastFrom, lastFrom, hhere]
          cases at? name (c :: cs) with
          | none => exact ih 0 latest
          | some found =>
              dsimp only [Option.map_some, Prod.map]
              rw [List.length_map, List.length_map]
              exact ih _ (some found.1)

end Respaced

/-- **One white space is as good as another.** -/
theorem flags_map {f : Char → Char} (h : Respaces f) {name : String}
    (hname : IsVariable name.toList) (text : String) :
    flags name (.ofList (text.toList.map f)) = flags name text := by
  have hlast : lastFrom name.toList 0 none (text.toList.map f) =
      (lastFrom name.toList 0 none text.toList).map (List.map f) :=
    lastFrom_map h hname 0 none text.toList
  rw [flags, flags, last?, last?, String.toList_ofList, hlast]
  cases lastFrom name.toList 0 none text.toList with
  | none => rfl
  | some value => simp [FlagSet.parse, h.words_map]

/-! ### Comments -/

/-- Where a reader of a package file is. -/
inductive Place where
  | code
  | quoted
  /-- In a quoted text, after the character that takes the meaning off the next one. -/
  | escaped
  | comment
  deriving DecidableEq, Repr

/-- Where the reader is after one more character. -/
def Place.next : Place → Char → Place
  | .code, '"' => .quoted
  | .code, '#' => .comment
  | .quoted, '\\' => .escaped
  | .quoted, '"' => .code
  | .escaped, _ => .quoted
  | .comment, '\n' => .code
  | place, _ => place

/-- Where the reader is after the text. -/
def Place.after (text : String) : Place := text.toList.foldl next .code

/-- Whatever a comment between the two texts says on its line, the flags are those without it. -/
def IgnoresCommentAt (name before after : String) : Prop :=
  ∀ comment : String, '\n' ∉ comment.toList →
    flags name (before ++ "#" ++ comment ++ after) = flags name (before ++ after)

/-- Comments make no difference wherever they may stand: where the reader is not in a quoted text,
and up to the end of the line. -/
def IgnoresComments (name : String) : Prop :=
  ∀ before after : String, Place.after before = .code →
    (after = "" ∨ after.toList.head? = some '\n') → IgnoresCommentAt name before after

/-- The text assigns the flags itself, whatever stands before it. -/
def Decides (name text : String) : Prop :=
  ∀ before : String, flags name (before ++ text) = flags name text

/-- A space in place of a line break. -/
def spaceForBreak (c : Char) : Char := if c = '\n' then ' ' else c

theorem respaces_spaceForBreak : Respaces spaceForBreak := by
  intro c
  by_cases hc : c = '\n'
  · right
    subst hc
    decide
  · left
    rw [spaceForBreak, if_neg hc]

theorem spaceForBreak_ne (c : Char) : spaceForBreak c ≠ '\n' := by
  unfold spaceForBreak
  split
  · decide
  · next hc => exact hc

/-- The text with its lines put on one. -/
def onOneLine (text : String) : String := .ofList (text.toList.map spaceForBreak)

theorem break_not_mem_onOneLine (text : String) : '\n' ∉ (onOneLine text).toList := by
  rw [onOneLine, String.toList_ofList, List.mem_map]
  rintro ⟨c, -, hc⟩
  exact spaceForBreak_ne c hc

/-- How a text is broken into lines makes no difference. -/
theorem flags_onOneLine_append {name : String} (hname : IsVariable name.toList)
    (text after : String) : flags name (onOneLine text ++ after) = flags name (text ++ after) := by
  have htwice : spaceForBreak ∘ spaceForBreak = spaceForBreak :=
    funext fun c => if_neg (spaceForBreak_ne c)
  rw [← flags_map respaces_spaceForBreak hname (onOneLine text ++ after),
    ← flags_map respaces_spaceForBreak hname (text ++ after)]
  simp [onOneLine, htwice]

/-- Where comments make no difference, no text in the place of what stands before them does. The
comment that shows it assigns some value and then repeats the text on its line, so that either the
value counts, and then so would another one, or what is found later does. -/
theorem flags_append_of_ignoresCommentAt {name : String} (hname : IsVariable name.toList)
    {before after : String} (h : IgnoresCommentAt name before after) (other : String) :
    flags name (other ++ after) = flags name (before ++ after) := by
  have hcomment : ∀ value : String, '"' ∉ value.toList → ')' ∉ value.toList →
      '\n' ∉ value.toList →
      (((last? name (onOneLine other ++ after)).or (some value)).map FlagSet.parse).getD ∅ =
        flags name (before ++ after) := by
    intro value hquote hclose hbreak
    rw [← h (("set(" ++ name ++ " \"" ++ value ++ "\")") ++ onOneLine other)]
    · rw [flags, ← last?_append hname hquote hclose (before ++ "#")]
      simp only [String.append_assoc]
    · have hunbroken : '\n' ∉ name.toList := fun hmem =>
        absurd (hname.unbroken _ hmem) (by decide)
      have hset : '\n' ∉ "set(".toList := by decide
      have hspace : '\n' ∉ " \"".toList := by decide
      have hend : '\n' ∉ "\")".toList := by decide
      simp only [String.toList_append, List.mem_append, not_or]
      exact ⟨⟨⟨⟨⟨hset, hunbroken⟩, hspace⟩, hbreak⟩, hend⟩, break_not_mem_onOneLine other⟩
  rw [← flags_onOneLine_append hname other after]
  cases hlast : last? name (onOneLine other ++ after) with
  | some value =>
      have hfound := hcomment "" (by decide) (by decide) (by decide)
      rw [hlast] at hfound
      rw [flags, hlast]
      exact hfound
  | none =>
      -- then it is the comment that decides, by whatever it assigns
      have ha := hcomment "a" (by decide) (by decide) (by decide)
      have hb := hcomment "b" (by decide) (by decide) (by decide)
      rw [hlast, ← hb, hlast] at ha
      exact absurd ha (by decide)

theorem ignoresCommentAt_iff_decides {name : String} (hname : IsVariable name.toList)
    (before after : String) : IgnoresCommentAt name before after ↔ Decides name after := by
  constructor
  · intro h other
    rw [flags_append_of_ignoresCommentAt hname h other,
      ← flags_append_of_ignoresCommentAt hname h "", String.empty_append]
  · intro h comment _
    rw [h, h]

/-- A text decides the flags if it assigns any, unless a text in front could make something else of
the value. -/
theorem decides_iff {name text : String} (hname : IsVariable name.toList)
    (hclose : ∀ value, last? name text = some value → ')' ∉ value.toList) :
    Decides name text ↔ (last? name text).isSome := by
  constructor
  · intro h
    rw [Option.isSome_iff_ne_none]
    intro hnone
    have hflags : flags name ("" ++ ("set(" ++ name ++ " \"" ++ "a" ++ "\")") ++ text) =
        .parse "a" := by
      rw [flags, last?_append hname (by decide) (by decide), hnone]
      rfl
    rw [h, flags, hnone] at hflags
    exact absurd hflags (by decide)
  · intro h before
    obtain ⟨value, hvalue⟩ := Option.isSome_iff_exists.1 h
    rw [flags, flags, last?_append_of_eq_some hname hvalue (hclose value hvalue), hvalue]

/-- **When a comment makes no difference.** Whatever it says, the flags are those without it,
exactly if the text after it decides them, whatever stands before that text. Mostly this means that
the text assigns the variable. -/
theorem ignoresCommentAt_iff {name : String} (hname : IsVariable name.toList)
    (before after : String) :
    (IgnoresCommentAt name before after ↔ Decides name after) ∧
      ((∀ value, last? name after = some value → ')' ∉ value.toList) →
        (Decides name after ↔ (last? name after).isSome)) :=
  ⟨ignoresCommentAt_iff_decides hname before after, decides_iff hname⟩

/-- An assignment that is commented out wins over the one before it. -/
theorem not_ignoresComments : ¬ IgnoresComments "FLAGS" := by
  intro h
  have hstale := h "set(FLAGS \"-DNEW=1\")\n" "\n" (by decide) (.inr (by decide))
    " set(FLAGS \"-DOLD=0\")" (by decide)
  exact absurd hstale (by decide)

/-- Before the last assignment a comment may say anything, and after it not. -/
theorem ignoresCommentAt_iff_stale : IsVariable "FLAGS".toList ∧
    IgnoresCommentAt "FLAGS" "" "\nset(FLAGS \"-DNEW=1\")\n" ∧
    ¬ IgnoresCommentAt "FLAGS" "set(FLAGS \"-DNEW=1\")\n" "\n" := by
  have hname : IsVariable "FLAGS".toList := .of_isAlphanum (by decide)
  have hassigned : last? "FLAGS" "\nset(FLAGS \"-DNEW=1\")\n" = some "-DNEW=1" := by decide
  have hnone : last? "FLAGS" "\n" = none := by decide
  constructor
  · exact hname
  constructor
  · obtain ⟨hcomment, hdecides⟩ := ignoresCommentAt_iff hname "" "\nset(FLAGS \"-DNEW=1\")\n"
    refine hcomment.2 ((hdecides fun value hvalue => ?_).2 (by rw [hassigned]; rfl))
    rw [hassigned] at hvalue
    cases hvalue
    decide
  · obtain ⟨hcomment, hdecides⟩ := ignoresCommentAt_iff hname "set(FLAGS \"-DNEW=1\")\n" "\n"
    intro h
    have hsome := (hdecides fun value hvalue => by rw [hnone] at hvalue; cases hvalue).1
      (hcomment.1 h)
    rw [hnone] at hsome
    cases hsome

end Assignment

end ExtensionPlan

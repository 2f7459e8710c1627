import ExtensionPlan.Path.Octets
import ExtensionPlan.Proofs.Path.Seen
import ExtensionPlan.Proofs.Text.Utf8

/-!
# ExtensionPlan.Proofs.Path.Octets

**Texts among the paths.** A path that is a text means the same whether it is kept as characters or
as octets. The separator and the dot are written as one octet each, and no other character has these
octets (`OctetPath.respell_eq_cons_iff`), so both have the same components, up to how a name is
spelled (`OctetPath.components_spelling_ofPath`). Hence whatever is done with paths that are texts
is done with their octets: comparing them, joining them, and keeping lists of distinct ones.

Only the other paths are shown as something that they are not. Some octets are in no text, so a path
with one of them is among these (`OctetPath.path?_of_mem`).
-/

namespace ExtensionPlan

open Text.Utf8 (encode)

namespace OctetPath

theorem toNat_character (octet : UInt8) : (character octet).toNat = octet.toNat := by
  have hlt := octet.toNat_lt
  rw [character, Char.ofNat, dif_pos (Or.inl (by omega))]
  rfl

/-- The text with a character for each octet. -/
def respell (text : List Char) : List Char := (encode text).map character

theorem spelling_ofPath (p : Path) : (ofPath p).spelling = ⟨respell p.chars⟩ := rfl

theorem character_injective : Function.Injective character := by
  intro a b h
  have hnat := congrArg Char.toNat h
  rw [toNat_character, toNat_character] at hnat
  exact UInt8.toNat_inj.1 hnat

theorem respell_injective : Function.Injective respell := fun _ _ h =>
  Text.Utf8.encode_injective (List.map_injective_iff.2 character_injective h)

theorem respell_append (s t : List Char) : respell (s ++ t) = respell s ++ respell t := by
  rw [respell, Text.Utf8.encode_append, List.map_append, respell, respell]

/-- A character of the lower half is spelled as it is. -/
theorem respell_cons {c : Char} (h : c.toNat < 0x80) (text : List Char) :
    respell (c :: text) = c :: respell text := by
  have hc : character (.ofNat c.toNat) = c := by
    refine Char.toNat_inj.1 ?_
    rw [toNat_character, Text.Utf8.toNat_ofNat_of_lt (by omega)]
  rw [respell, Text.Utf8.encode_cons_of_lt h, List.map_cons, hc, respell]

theorem le_of_mem_respell {c d : Char} (h : 0x80 ≤ c.toNat) (hd : d ∈ respell [c]) :
    0x80 ≤ d.toNat := by
  obtain ⟨b, hb, rfl⟩ := List.mem_map.1 hd
  rw [toNat_character]
  refine (Text.Utf8.bounds_of_mem_utf8EncodeChar h b ?_).1
  simpa [encode] using hb

/-- What begins with a character of the lower half did so before. -/
theorem respell_eq_cons_iff {x : Char} (hx : x.toNat < 0x80) {cs ds : List Char} :
    respell cs = x :: ds ↔ ∃ rest, cs = x :: rest ∧ respell rest = ds := by
  constructor
  · intro h
    cases cs with
    | nil => cases h
    | cons c rest =>
      by_cases hc : c.toNat < 0x80
      · rw [respell_cons hc] at h
        cases h
        exact ⟨rest, rfl, rfl⟩
      · -- the first octet of such a character is none of the lower half
        obtain ⟨a, others, ha, -⟩ := Text.Utf8.exists_first c []
        have hmem : character a ∈ respell [c] := by
          simp [respell, Text.Utf8.encode_cons, ha]
        have hhead : respell (c :: rest) =
            character a :: (others ++ encode rest).map character := by
          rw [respell, Text.Utf8.encode_cons, ha]
          rfl
        rw [hhead] at h
        have hle := le_of_mem_respell (Nat.le_of_not_lt hc) hmem
        rw [(List.cons.inj h).1] at hle
        omega
  · rintro ⟨rest, rfl, rfl⟩
    exact respell_cons hx rest

theorem respell_eq_nil_iff {cs : List Char} : respell cs = [] ↔ cs = [] :=
  ⟨fun h => respell_injective (h.trans rfl), fun h => by rw [h]; rfl⟩

/-! ### Components -/

theorem pieces_append_of_not_mem {x : Char} {xs rest first : List Char}
    {others : List (List Char)} (hxs : x ∉ xs)
    (hrest : Text.pieces (· == x) rest = first :: others) :
    Text.pieces (· == x) (xs ++ rest) = (xs ++ first) :: others := by
  induction xs with
  | nil => exact hrest
  | cons y xs ih =>
      rw [List.mem_cons, not_or] at hxs
      rw [List.cons_append, Text.pieces, if_neg (by simpa using Ne.symm hxs.1), ih hxs.2]
      rfl

/-- A text has the same pieces between characters of the lower half. -/
theorem pieces_respell {x : Char} (hx : x.toNat < 0x80) (text : List Char) :
    Text.pieces (· == x) (respell text) = (Text.pieces (· == x) text).map respell := by
  induction text with
  | nil => rfl
  | cons c rest ih =>
      obtain ⟨first, others, hrest⟩ :=
        List.exists_cons_of_ne_nil (Text.pieces_ne_nil (· == x) rest)
      rw [hrest, List.map_cons] at ih
      by_cases hsep : c = x
      · subst hsep
        rw [respell_cons hx]
        simp only [Text.pieces, beq_self_eq_true, if_true, ih, hrest]
        rfl
      · have hnot : x ∉ respell [c] := by
          intro hmem
          by_cases hc : c.toNat < 0x80
          · rw [respell_cons hc] at hmem
            exact hsep (List.mem_singleton.1 hmem).symm
          · exact absurd (le_of_mem_respell (Nat.le_of_not_lt hc) hmem) (Nat.not_le.2 hx)
        have happend (text : List Char) : respell (c :: text) = respell [c] ++ respell text :=
          respell_append [c] text
        have hpieces : Text.pieces (· == x) (c :: rest) = (c :: first) :: others := by
          simp [Text.pieces, hsep, hrest]
        rw [happend rest, pieces_append_of_not_mem hnot ih, hpieces, List.map_cons, happend first]

/-- The component with a character for each octet. -/
def respellComponent : Component → Component
  | .name chars => .name (respell chars)
  | other => other

theorem respellComponent_injective : Function.Injective respellComponent := by
  intro a b h
  cases a <;> cases b <;> simp only [respellComponent, Component.name.injEq, reduceCtorEq] at h ⊢
  exact respell_injective h

theorem ofPiece?_respell (piece : List Char) :
    Component.ofPiece? (respell piece) = (Component.ofPiece? piece).map respellComponent := by
  have hdot : respell piece = ['.'] ↔ piece = ['.'] := respell_injective.eq_iff' rfl
  have hdots : respell piece = ['.', '.'] ↔ piece = ['.', '.'] := respell_injective.eq_iff' rfl
  simp only [Component.ofPiece?, respell_eq_nil_iff, hdot, hdots]
  split
  · rfl
  · split <;> rfl

theorem lead_respell (text : List Char) : (Path.mk (respell text)).lead = (Path.mk text).lead := by
  rcases Path.lead_cases ⟨text⟩ with
    ⟨rest, hchars, -⟩ | ⟨hchars, -⟩ | ⟨rest, hchars, -⟩ | hlead
  · obtain rfl : text = '/' :: rest := hchars
    rw [respell_cons (by decide)]
    rfl
  · obtain rfl : text = ['.'] := hchars
    rfl
  · obtain rfl : text = '.' :: '/' :: rest := hchars
    rw [respell_cons (by decide), respell_cons (by decide)]
    rfl
  · -- any other lead would have been one before
    rw [hlead]
    rcases Path.lead_cases ⟨respell text⟩ with
      ⟨rest, hchars, -⟩ | ⟨hchars, -⟩ | ⟨rest, hchars, -⟩ | hother
    · obtain ⟨rest, rfl, -⟩ := (respell_eq_cons_iff (by decide)).1 hchars
      cases hlead
    · obtain ⟨rest, rfl, hrest⟩ := (respell_eq_cons_iff (by decide)).1 hchars
      rw [respell_eq_nil_iff.1 hrest] at hlead
      cases hlead
    · obtain ⟨rest, rfl, hrest⟩ := (respell_eq_cons_iff (by decide)).1 hchars
      obtain ⟨rest, rfl, -⟩ := (respell_eq_cons_iff (by decide)).1 hrest
      cases hlead
    · exact hother

/-- A lead holds nothing but characters of the lower half. -/
theorem respell_lead (p : Path) : respell p.lead = p.lead := by
  rcases Path.lead_cases p with ⟨_, -, h⟩ | ⟨-, h⟩ | ⟨_, -, h⟩ | h <;> rw [h] <;> rfl

theorem components_spelling_ofPath (p : Path) :
    (ofPath p).spelling.components = p.components.map respellComponent := by
  have hlead : (ofPath p).spelling.lead = p.lead := lead_respell p.chars
  have hleads : (ofPath p).spelling.leadComponents = p.leadComponents.map respellComponent := by
    rw [Path.leadComponents, Path.leadComponents, hlead]
    split
    · rfl
    · split <;> rfl
  have hbody : (ofPath p).spelling.body = p.body.map respell := by
    have hprefix := respell_lead p
    obtain ⟨rest, hchars⟩ : ∃ rest, p.chars = p.lead ++ rest := ⟨_, p.chars_eq⟩
    rw [Path.body, Path.body, hlead, spelling_ofPath, hchars, respell_append, hprefix,
      List.drop_left, List.drop_left, pieces_respell (by decide)]
  rw [Path.components, Path.components, hleads, hbody, List.map_append, List.filterMap_map,
    List.map_filterMap]
  simp only [Function.comp_def, ofPiece?_respell]

theorem fileName?_spelling_ofPath (p : Path) :
    (ofPath p).spelling.fileName? = p.fileName?.map respell := by
  rw [Path.fileName?, Path.fileName?, components_spelling_ofPath, List.getLast?_map]
  cases p.components.getLast? with
  | none => rfl
  | some last => cases last <;> rfl

theorem extension?_spelling_ofPath (p : Path) :
    (ofPath p).spelling.extension? = p.extension?.map respell := by
  rw [Path.extension?, Path.extension?, fileName?_spelling_ofPath]
  cases p.fileName? with
  | none => rfl
  | some name =>
      have hempty (piece : List Char) : (respell piece).isEmpty = piece.isEmpty := by
        rw [Bool.eq_iff_iff, List.isEmpty_iff, List.isEmpty_iff, respell_eq_nil_iff]
      simp only [Option.map_some, Option.bind_some, pieces_respell (x := '.') (by decide),
        ← List.map_reverse]
      -- the cases are those of the pieces between the dots
      rcases (Text.pieces (· == '.') name).reverse with _ | ⟨last, _ | ⟨before, others⟩⟩
      · rfl
      · rfl
      · simp only [List.map_cons, hempty, List.isEmpty_map]
        split <;> rfl

/-! ### Paths -/

@[simp] theorem shown_ofPath (p : Path) : (ofPath p).shown = p := by
  rw [shown, ofPath, Text.Utf8.textWithReplacements_encode]
  exact Path.ofString_text p

theorem path?_eq_some_iff {p : OctetPath} {q : Path} : p.path? = some q ↔ p = ofPath q := by
  constructor
  · intro h
    rw [path?] at h
    split at h
    · next hshown => rw [← hshown, Option.some.inj h]
    · cases h
  · rintro rfl
    simp [path?]

@[simp] theorem path?_ofPath (p : Path) : (ofPath p).path? = some p := path?_eq_some_iff.2 rfl

/-- A path with one of the last bytes in it is no text. -/
theorem path?_of_mem {p : OctetPath} {b : UInt8} (hb : b ∈ p.octets) (h : 0xF8 ≤ b.toNat) :
    p.path? = none := by
  refine Option.eq_none_iff_forall_ne_some.2 fun q hq => ?_
  rw [path?_eq_some_iff.1 hq] at hb
  exact absurd (Text.Utf8.lt_of_mem_encode hb) (Nat.not_lt.2 h)

@[simp] theorem isAbsolute_ofPath (p : Path) : (ofPath p).isAbsolute = p.isAbsolute := by
  have hlead : (ofPath p).spelling.lead = p.lead := lead_respell p.chars
  rw [isAbsolute, Bool.eq_iff_iff, ← Path.lead_eq_root_iff, hlead, Path.lead_eq_root_iff]

@[simp] theorem same_ofPath (p q : Path) : (ofPath p).same (ofPath q) = p.same q := by
  rw [same, Bool.eq_iff_iff, Path.same_iff, Path.same_iff, components_spelling_ofPath,
    components_spelling_ofPath]
  exact (List.map_injective_iff.2 respellComponent_injective).eq_iff

/-- The octets end with a separator where the text does. -/
theorem getLast?_ofPath (p : Path) :
    ((ofPath p).octets.getLast? == some 0x2F) = (p.chars.getLast? == some '/') := by
  show ((encode p.chars).getLast? == some 0x2F) = _
  rcases List.eq_nil_or_concat p.chars with hnil | ⟨front, c, hchars⟩
  · rw [hnil]
    rfl
  rw [hchars, List.concat_eq_append, Text.Utf8.encode_append, List.getLast?_concat,
    Bool.eq_iff_iff, beq_iff_eq, beq_iff_eq, Option.some.injEq]
  by_cases hc : c.toNat < 0x80
  · rw [Text.Utf8.encode_cons_of_lt hc, Text.Utf8.encode_nil, List.getLast?_concat,
      Option.some.injEq, ← UInt8.toNat_inj, Text.Utf8.toNat_ofNat_of_lt (by omega),
      ← Char.toNat_inj]
    rfl
  · -- no octet of such a character is a separator
    have hne : encode [c] ≠ [] := fun h => List.cons_ne_nil c [] (Text.Utf8.encode_injective h)
    have hmem : ∀ b ∈ encode [c], 0x80 ≤ b.toNat := by
      intro b hb
      refine (Text.Utf8.bounds_of_mem_utf8EncodeChar (Nat.le_of_not_lt hc) b ?_).1
      simpa [encode] using hb
    constructor
    · intro hlast
      rw [List.getLast?_append_of_ne_nil _ hne] at hlast
      exact absurd (hmem _ (List.mem_of_getLast? hlast)) (by decide)
    · rintro rfl
      exact absurd hc (by decide)

@[simp] theorem join_ofPath (p q : Path) : (ofPath p).join (ofPath q) = ofPath (p.join q) := by
  have hempty : (ofPath p).octets.isEmpty = p.isEmpty := by
    rw [Path.isEmpty, Bool.eq_iff_iff, List.isEmpty_iff, List.isEmpty_iff]
    exact ⟨fun h => Text.Utf8.encode_injective h, fun h => congrArg encode h⟩
  have hslash : 0x2F :: encode q.chars = encode ('/' :: q.chars) :=
    (Text.Utf8.encode_cons_of_lt (c := '/') (by decide) q.chars).symm
  rw [join, Path.join, isAbsolute_ofPath, getLast?_ofPath, hempty]
  split
  · rfl
  · split
    · exact congrArg mk (Text.Utf8.encode_append p.chars q.chars).symm
    · exact congrArg mk ((congrArg (encode p.chars ++ ·) hslash).trans
        (Text.Utf8.encode_append p.chars ('/' :: q.chars)).symm)

/-- What is below a path has its octets. -/
theorem mem_octets_join {p q : OctetPath} (hq : q.isAbsolute = false) {b : UInt8}
    (hb : b ∈ p.octets) : b ∈ (p.join q).octets := by
  rw [join, hq, if_neg Bool.false_ne_true]
  split <;> exact List.mem_append_left _ hb

/-! ### Lists of paths -/

theorem register_map_ofPath (ps : List Path) (p : Path) :
    register (ps.map ofPath) (ofPath p) = (Path.register ps p).map ofPath := by
  have hany : ((ps.map ofPath).any fun q => q.same (ofPath p)) = p.isIn ps := by
    rw [List.any_map, Path.isIn]
    simp only [Function.comp_def, same_ofPath, Path.same]
  rw [register, hany, Path.register]
  split
  · rfl
  · rw [List.map_append, List.map_singleton]

end OctetPath

end ExtensionPlan

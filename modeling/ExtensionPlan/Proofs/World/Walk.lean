import ExtensionPlan.Proofs.Path.Descent
import ExtensionPlan.Proofs.Tree.Walk
import ExtensionPlan.World

/-!
# ExtensionPlan.Proofs.World.Walk

**Following the pieces of a path.** A path is followed from the root or from the working directory,
which may be removed, and through links; none of that matters to what is said here. Wherever the
first pieces have led, `Onward` says how it goes on from the node that is there, and
`World.exists_onward` that there is always such a way on. From these come the laws that the rest of
the theory rests on: idle pieces can be dropped (`World.walk_idle`), there is a way on only from a
directory (`World.exists_directory_of_walk`), and a name leads to the entry that has it
(`World.walk_enter`, `World.exists_lookup_of_walk`).

`World.find` adds to a walk that the path can be looked up at all (`World.IsSpellable`).
-/

namespace ExtensionPlan

/-! ### Moves -/

namespace Tree.Move

theorem ofPiece_of_isIdle {piece : List Char} (h : Path.isIdle piece = true) :
    ofPiece piece = .stay := by
  rw [Path.isIdle, Bool.or_eq_true, List.isEmpty_iff, beq_iff_eq] at h
  rw [ofPiece, if_pos h]

theorem ofPiece_of_isName {piece : List Char} (h : IsName piece) :
    ofPiece piece ≠ .stay ∧ ofPiece piece ≠ .up := by
  rw [ofPiece, if_neg (not_or.2 ⟨h.filled, h.notCurrent⟩), if_neg h.notParent]
  split <;> simp

/-- What can be the name of an entry is entered. -/
theorem ofPiece_chars (name : FileName) : ofPiece name.chars = .enter name := by
  have h := name.isName
  rw [ofPiece, if_neg (not_or.2 ⟨h.filled, h.notCurrent⟩), if_neg h.notParent, FileName.ofChars?,
    dif_pos name.plain]

theorem chars_of_ofPiece {piece : List Char} {name : FileName} (h : ofPiece piece = .enter name) :
    name.chars = piece := by
  unfold ofPiece at h
  split at h
  · cases h
  · split at h
    · cases h
    · split at h
      · next hname =>
        unfold FileName.ofChars? at hname
        split at hname
        · cases hname
          cases h
          rfl
        · cases hname
      · cases h

end Tree.Move

theorem Node.mem_of_lookup {name : FileName} {child : Node} {children : List (FileName × Node)}
    (h : children.lookup name = some child) : (name, child) ∈ children := by
  obtain ⟨before, after, heq, -⟩ := List.lookup_eq_some_iff.1 h
  simp [heq]

namespace World

variable {w : World} {p q : Path} {front back : List (List Char)} {piece : List Char}
  {node below : Node} {children : List (FileName × Node)}

/-! ### Going on from a node -/

/-- The ways on from a place where there is `node`. Where that is does not show. -/
structure Onward (node : Node) (go : List (List Char) → Except SystemError Node) : Prop where
  stop : go [] = .ok node
  distinct : ∀ children, node = .directory children → (children.map (·.1)).Nodup
  /-- There is no way on from what is no directory. -/
  blocked : ∀ piece rest, (∀ children, node ≠ .directory children) →
    go (piece :: rest) = .error .notDirectory
  stay : ∀ piece rest children, node = .directory children → Path.isIdle piece = true →
    go (piece :: rest) = go rest
  enter : ∀ children name child, node = .directory children →
    children.lookup name = some child → (∀ target, child ≠ .link target) →
    Text.byteCount name.chars ≤ Tree.nameLimit → go [name.chars] = .ok child
  /-- Whatever is reached through a name, something has it. -/
  entered : ∀ piece rest children below, node = .directory children → IsName piece →
    go (piece :: rest) = .ok below →
    ∃ name child, name.chars = piece ∧ children.lookup name = some child ∧
      Text.byteCount name.chars ≤ Tree.nameLimit

theorem onward_walk {tree : Tree} {there : Location} (h : tree.node? there = some node)
    (links : Nat) : Onward node fun rest => (tree.walk links there rest).map (·.2) where
  stop := by simp [Tree.walk_nil h, Except.map]
  distinct := by
    rintro children rfl
    exact Tree.nodup_of_node? h
  blocked := by
    intro piece rest hnode
    simp [Tree.walk_of_not_directory h hnode, Except.map]
  stay := by
    rintro piece rest children rfl hidle
    rw [Tree.walk_of_stay h (Tree.Move.ofPiece_of_isIdle hidle)]
  enter := by
    rintro children name child rfl hchild hlink hshort
    simp [Tree.walk_of_enter h (Tree.Move.ofPiece_chars name) hchild hshort hlink, Except.map]
  entered := by
    rintro piece rest children below rfl hname hgo
    obtain ⟨⟨there, below⟩, hwalk, -⟩ := map_eq_ok_iff.1 hgo
    obtain ⟨hstay, hup⟩ := Tree.Move.ofPiece_of_isName hname
    obtain ⟨name, child, hmove, hchild, hshort⟩ := Tree.exists_of_walk_cons h hstay hup hwalk
    exact ⟨name, child, Tree.Move.chars_of_ofPiece hmove, hchild, hshort⟩

/-- In a removed directory there is nothing, so every name leads nowhere. -/
theorem onward_removed (tree : Tree) (around : Location) (removed : Nat) :
    Onward (.directory []) (walkFrom tree around (removed + 1)) where
  stop := rfl
  distinct := by
    intro children hnode
    cases hnode
    exact List.nodup_nil
  blocked := by
    intro piece rest hnode
    exact absurd rfl (hnode [])
  stay := by
    intro piece rest children _ hidle
    rw [walkFrom, Tree.Move.ofPiece_of_isIdle hidle]
  enter := by
    intro children name child hnode hchild
    cases hnode
    simp at hchild
  entered := by
    intro piece rest children below _ hname hgo
    obtain ⟨hstay, hup⟩ := Tree.Move.ofPiece_of_isName hname
    rw [walkFrom] at hgo
    cases hmove : Tree.Move.ofPiece piece with
    | stay => exact absurd hmove hstay
    | up => exact absurd hmove hup
    | refused => simp [hmove] at hgo
    | enter name => simp [hmove] at hgo

/-! ### Ways in two parts -/

theorem exists_onward_walkFrom {tree : Tree} {around : Location} {removed : Nat}
    (h : walkFrom tree around removed front = .ok node) :
    ∃ go, Onward node go ∧ ∀ back, walkFrom tree around removed (front ++ back) = go back := by
  induction front generalizing removed with
  | nil =>
      cases removed with
      | zero =>
          obtain ⟨⟨there, found⟩, hwalk, rfl⟩ := map_eq_ok_iff.1 h
          obtain ⟨hnode, left, hback⟩ := Tree.exists_walk_append hwalk
          exact ⟨_, onward_walk hnode left, fun back => by rw [walkFrom, hback]⟩
      | succ removed =>
          cases h
          exact ⟨_, onward_removed tree around removed, fun back => rfl⟩
  | cons piece rest ih =>
      cases removed with
      | zero =>
          obtain ⟨⟨there, found⟩, hwalk, rfl⟩ := map_eq_ok_iff.1 h
          obtain ⟨hnode, left, hback⟩ := Tree.exists_walk_append hwalk
          exact ⟨_, onward_walk hnode left, fun back => by rw [walkFrom, hback]⟩
      | succ removed =>
          rw [walkFrom] at h
          simp only [List.cons_append, walkFrom]
          cases hmove : Tree.Move.ofPiece piece with
          | stay =>
              rw [hmove] at h
              exact ih h
          | up =>
              rw [hmove] at h
              exact ih h
          | refused => simp [hmove] at h
          | enter name => simp [hmove] at h

theorem walkFrom_append_error {tree : Tree} {around : Location} {removed : Nat} {e : SystemError}
    (h : walkFrom tree around removed front = .error e) (back : List (List Char)) :
    walkFrom tree around removed (front ++ back) = .error e := by
  induction front generalizing removed with
  | nil =>
      cases removed with
      | zero =>
          rw [walkFrom, map_eq_error_iff] at h ⊢
          exact Tree.walk_append_error h back
      | succ removed => cases h
  | cons piece rest ih =>
      cases removed with
      | zero =>
          rw [walkFrom, map_eq_error_iff] at h ⊢
          exact Tree.walk_append_error h back
      | succ removed =>
          rw [walkFrom] at h
          simp only [List.cons_append, walkFrom]
          cases hmove : Tree.Move.ofPiece piece with
          | stay =>
              rw [hmove] at h
              exact ih h
          | up =>
              rw [hmove] at h
              exact ih h
          | refused => simpa [hmove] using h
          | enter name => simpa [hmove] using h

/-- **The way on.** Where the first pieces lead, the others are followed from what is there. -/
theorem exists_onward (h : w.walk p front = .ok node) :
    ∃ go, Onward node go ∧ ∀ back, w.walk p (front ++ back) = go back := by
  unfold walk at h ⊢
  split at h
  · next habsolute =>
    simp only [habsolute, if_true]
    exact exists_onward_walkFrom h
  · next hrelative =>
    simp only [hrelative]
    exact exists_onward_walkFrom h

theorem walk_append_error {e : SystemError} (h : w.walk p front = .error e)
    (back : List (List Char)) : w.walk p (front ++ back) = .error e := by
  unfold walk at h ⊢
  split at h
  · next habsolute =>
    rw [if_pos habsolute]
    exact walkFrom_append_error h back
  · next hrelative =>
    rw [if_neg hrelative]
    exact walkFrom_append_error h back

/-- Of a path, only whether it starts at the root matters to where its pieces lead. -/
theorem walk_congr (h : p.isAbsolute = q.isAbsolute) (pieces : List (List Char)) :
    w.walk p pieces = w.walk q pieces := by
  rw [walk, walk, h]

/-! ### Laws of walking -/

/-- No two entries of a directory have one name. -/
theorem nodup_of_walk (h : w.walk p front = .ok (.directory children)) :
    (children.map (·.1)).Nodup := by
  obtain ⟨go, onward, -⟩ := exists_onward h
  exact onward.distinct children rfl

/-- There is a way on only from a directory. -/
theorem exists_directory_of_walk (h : w.walk p (front ++ piece :: back) = .ok below) :
    ∃ children, w.walk p front = .ok (.directory children) := by
  cases hfront : w.walk p front with
  | error e =>
      rw [walk_append_error hfront] at h
      cases h
  | ok node =>
      obtain ⟨go, onward, hgo⟩ := exists_onward hfront
      by_contra hnone
      have hnode : ∀ children, node ≠ .directory children := by
        rintro children rfl
        exact hnone ⟨children, rfl⟩
      rw [hgo, onward.blocked piece back hnode] at h
      cases h

/-- An idle piece leaves one in the directory where one is. -/
theorem walk_idle_of_directory (h : w.walk p front = .ok (.directory children))
    (hidle : Path.isIdle piece = true) (back : List (List Char)) :
    w.walk p (front ++ piece :: back) = w.walk p (front ++ back) := by
  obtain ⟨go, onward, hgo⟩ := exists_onward h
  rw [hgo, hgo, onward.stay piece back children rfl hidle]

/-- An idle piece makes no difference before another one: either there is a directory, or neither
of them leads anywhere. -/
theorem walk_idle (hidle : Path.isIdle piece = true) (front : List (List Char))
    (other : List Char) (back : List (List Char)) :
    w.walk p (front ++ piece :: other :: back) = w.walk p (front ++ other :: back) := by
  cases hfront : w.walk p front with
  | error e => rw [walk_append_error hfront, walk_append_error hfront]
  | ok node =>
      by_cases hnode : ∃ children, node = .directory children
      · obtain ⟨children, rfl⟩ := hnode
        exact walk_idle_of_directory hfront hidle _
      · rw [not_exists] at hnode
        obtain ⟨go, onward, hgo⟩ := exists_onward hfront
        rw [hgo, hgo, onward.blocked _ _ hnode, onward.blocked _ _ hnode]

/-- A name leads to what has it in the directory, links apart. -/
theorem walk_enter {name : FileName} {child : Node}
    (h : w.walk p front = .ok (.directory children)) (hchild : children.lookup name = some child)
    (hlink : ∀ target, child ≠ .link target)
    (hshort : Text.byteCount name.chars ≤ Tree.nameLimit) :
    w.walk p (front ++ [name.chars]) = .ok child := by
  obtain ⟨go, onward, hgo⟩ := exists_onward h
  rw [hgo, onward.enter children name child rfl hchild hlink hshort]

/-- What is reached through a name is reached through an entry of a directory. -/
theorem exists_lookup_of_walk (hname : IsName piece)
    (h : w.walk p (front ++ piece :: back) = .ok below) :
    ∃ children, w.walk p front = .ok (.directory children) ∧
      ∃ name child, name.chars = piece ∧ children.lookup name = some child ∧
        Text.byteCount name.chars ≤ Tree.nameLimit := by
  obtain ⟨children, hfront⟩ := exists_directory_of_walk h
  obtain ⟨go, onward, hgo⟩ := exists_onward hfront
  rw [hgo] at h
  exact ⟨children, hfront, onward.entered piece back children below rfl hname h⟩

/-- Any number of idle pieces make no difference before another one. -/
theorem walk_idles {idles : List (List Char)} (hidle : ∀ piece ∈ idles, Path.isIdle piece = true)
    (other : List Char) (back : List (List Char)) :
    w.walk p (idles ++ other :: back) = w.walk p (other :: back) := by
  induction idles with
  | nil => rfl
  | cons piece idles ih =>
      have hrest := ih fun other h => hidle other (List.mem_cons_of_mem piece h)
      obtain ⟨next, others, hnext⟩ :=
        List.exists_cons_of_ne_nil (List.append_ne_nil_of_right_ne_nil idles
          (List.cons_ne_nil other back))
      rw [hnext] at hrest
      have hdrop := walk_idle (w := w) (p := p) (hidle piece List.mem_cons_self) [] next others
      rw [List.cons_append, hnext]
      exact hdrop.trans hrest

/-! ### Going down to a name -/

/-- Going along a path that was extended by a piece is going along the path and then on by the
piece. -/
theorem walk_join {name : List Char} (whole : '/' ∉ name) (p : Path) (back : List (List Char)) :
    w.walk (p.join ⟨name⟩) (Tree.piecesOf (p.join ⟨name⟩) ++ back) =
      w.walk p (Tree.piecesOf p ++ name :: back) := by
  have hname : Text.pieces (· == '/') name = [name] := Text.pieces_of_not_mem whole
  have hempty : Text.pieces (· == '/') [] = [[]] := rfl
  rw [walk_congr (Path.isAbsolute_join_eq whole)]
  unfold Tree.piecesOf
  rcases Path.join_cases p whole with ⟨hp, hjoin⟩ | ⟨front, hfront, hjoin⟩ | ⟨-, -, hjoin⟩
  · rw [hjoin, hp, hname, hempty]
    exact (walk_idle rfl [] name back).symm
  · rw [hjoin, hfront, Text.pieces_append_cons (by rfl), Text.pieces_append_cons (by rfl), hname,
      hempty, List.append_assoc, List.append_assoc]
    exact (walk_idle rfl _ name back).symm
  · rw [hjoin, Text.pieces_append_cons (by rfl), hname, List.append_assoc, List.singleton_append]

/-! ### Looking a path up -/

/-- A spelling that can be handed to the system: it holds no mark of an end, is not empty and not
too long. -/
structure IsSpellable (p : Path) : Prop where
  unmarked : '\x00' ∉ p.chars
  filled : p.chars ≠ []
  short : Text.byteCount p.chars ≤ pathLimit

/-- What is left of a spelling can be handed to the system as well, unless nothing is left. -/
theorem IsSpellable.of_sublist (hq : IsSpellable q) (hsub : p.chars.Sublist q.chars)
    (filled : p.chars ≠ []) : IsSpellable p where
  unmarked := fun hmarked => hq.unmarked (hsub.subset hmarked)
  filled := filled
  short := Nat.le_trans (Text.byteCount_le_of_sublist hsub) hq.short

/-- A path leads to what its pieces lead to, if it can be looked up. -/
theorem find_eq_ok_iff : w.find p = .ok node ↔
    IsSpellable p ∧ w.walk p (Tree.piecesOf p) = .ok node := by
  unfold find
  by_cases hmarked : '\x00' ∈ p.chars
  · have hnot : ¬ IsSpellable p := fun h => h.unmarked hmarked
    simp [hmarked, hnot]
  by_cases hempty : p.chars = []
  · have hnot : ¬ IsSpellable p := fun h => h.filled hempty
    simp [Path.isEmpty, hempty, hnot]
  by_cases hlong : pathLimit < Text.byteCount p.chars
  · have hnot : ¬ IsSpellable p := fun h => Nat.not_lt.2 h.short hlong
    simp [Path.isEmpty, hmarked, hempty, hlong, hnot]
  · have hspellable : IsSpellable p := ⟨hmarked, hempty, Nat.not_lt.1 hlong⟩
    simp [Path.isEmpty, hmarked, hempty, hlong, hspellable]

theorem isDirectory_iff : w.isDirectory p = true ↔
    ∃ children, w.find p = .ok (.directory children) := by
  unfold isDirectory
  split
  · next children h => simp [h]
  · next h => simpa using h

/-- The path of a directory could be looked up. -/
theorem isSpellable_of_isDirectory (h : w.isDirectory p = true) : IsSpellable p := by
  obtain ⟨children, hchildren⟩ := isDirectory_iff.1 h
  exact (find_eq_ok_iff.1 hchildren).1

theorem isFile_iff : w.isFile p = true ↔ ∃ file, w.find p = .ok (.file file) := by
  unfold isFile
  split
  · next file h => simp [h]
  · next h => simpa using h

theorem isFound_iff : w.isFound p = true ↔ ∃ node, w.find p = .ok node := by
  unfold isFound
  split
  · next node h => simp [h]
  · next e h => simp [h]

/-- The entries of a directory are the nodes in it, without what is below them. -/
theorem entriesIn_eq_ok_iff {entries : List (FileName × Entry)} :
    w.entriesIn p = .ok entries ↔ ∃ children, w.find p = .ok (.directory children) ∧
      entries = children.map fun child => (child.1, child.2.entry) := by
  unfold entriesIn
  rw [bind_eq_ok_iff]
  constructor
  · rintro ⟨node, hnode, h⟩
    cases node with
    | link target => cases h
    | file file => cases h
    | directory children =>
        cases h
        exact ⟨children, hnode, rfl⟩
  · rintro ⟨children, hnode, rfl⟩
    exact ⟨.directory children, hnode, rfl⟩

/-- There is an entry of this name in the directory that the path leads to. -/
def HasEntry (w : World) (p : Path) (name : FileName) : Prop :=
  ∃ entries, w.entriesIn p = .ok entries ∧ name ∈ entries.map (·.1)

theorem hasEntry_iff {name : FileName} : w.HasEntry p name ↔
    ∃ children, w.find p = .ok (.directory children) ∧ name ∈ children.map (·.1) := by
  unfold HasEntry
  simp only [entriesIn_eq_ok_iff]
  constructor
  · rintro ⟨entries, ⟨children, hfind, rfl⟩, hname⟩
    exact ⟨children, hfind, by simpa using hname⟩
  · rintro ⟨children, hfind, hname⟩
    exact ⟨_, ⟨children, hfind, rfl⟩, by simpa using hname⟩

end World

end ExtensionPlan

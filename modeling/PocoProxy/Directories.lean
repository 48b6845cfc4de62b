/-
Making a chain of directories.

`CreateDirectoryD` is there for `std::string` and for `std::wstring`, with the same text
(the second argument of the latter is not used). It splits the path at the backslashes and
makes one directory after the other, each with the path so far, a backslash at its end.

A directory is known by its components: the first one is the root, and the empty ones
behind it are ignored. No plain file is in the way, so that a set of directories, closed
under the parent, is all that `CreateDirectory` depends on. A path has no NUL, so that
`c_str()` is the path.
-/
import PocoProxy.Splitting

set_option autoImplicit false

namespace PocoProxy.Directories

open PocoProxy.Loops PocoProxy.Strings PocoProxy.Cutting

variable {CharT : Type} [DecidableEq CharT]

/-! ## The directories -/

/-- A set of directories. -/
@[ext] structure Volume (CharT : Type) where
  isDirectory : List (List CharT) → Bool
  closed : ∀ d c, d ≠ [] → isDirectory (d ++ [c]) = true → isDirectory d = true

omit [DecidableEq CharT] in
/-- With a directory, all directories above it are there. -/
theorem Volume.isDirectory_of_prefix {v : Volume CharT} {d e : List (List CharT)} (hd : d ≠ [])
    (h : d <+: e) (he : v.isDirectory e = true) : v.isDirectory d = true := by
  obtain ⟨below, rfl⟩ := h
  induction below using List.reverseRecOn with
  | nil => rwa [List.append_nil] at he
  | append_singleton below c ih =>
      rw [← List.append_assoc] at he
      exact ih (v.closed _ c (List.append_ne_nil_of_left_ne_nil hd _) he)

omit [DecidableEq CharT] in
theorem Volume.eq_of_iff {v w : Volume CharT}
    (h : ∀ d, v.isDirectory d = true ↔ w.isDirectory d = true) : v = w := by
  ext1
  funext d
  exact Bool.eq_iff_iff.mpr (h d)

/-- One directory more, whose parent is there. -/
def Volume.add (v : Volume CharT) (d : List (List CharT))
    (h : v.isDirectory d.dropLast = true) : Volume CharT where
  isDirectory e := v.isDirectory e || decide (e = d)
  closed e c hne he := by
    rw [Bool.or_eq_true, decide_eq_true_eq] at he ⊢
    rcases he with he | rfl
    · exact Or.inl (v.closed e c hne he)
    · rw [List.dropLast_concat] at h
      exact Or.inl h

/-- The components of a path. -/
def resolve (backslash : CharT) (path : List CharT) : List (List CharT) :=
  match path.splitOn backslash with
  | [] => []
  | root :: rest => root :: rest.filter (· ≠ [])

/-- A directory that is not there is made when its parent is, and otherwise nothing changes. -/
def Volume.make (v : Volume CharT) (d : List (List CharT)) : Volume CharT :=
  if v.isDirectory d = true then v
  else if h : d.dropLast ≠ [] ∧ v.isDirectory d.dropLast = true then v.add d h.2
  else v

theorem Volume.isDirectory_make (v : Volume CharT) (d e : List (List CharT)) :
    (v.make d).isDirectory e = true
      ↔ v.isDirectory e = true ∨ (e = d ∧ d.dropLast ≠ [] ∧ v.isDirectory d.dropLast = true) := by
  rw [Volume.make]
  split
  next hthere =>
    constructor
    · exact Or.inl
    · rintro (h | ⟨rfl, -⟩)
      · exact h
      · exact hthere
  next hnot =>
    split
    next hparent =>
      rw [Volume.add, Bool.or_eq_true, decide_eq_true_eq, and_iff_left hparent]
    next hparent => simp only [hparent, and_false, or_false]

/-- `CreateDirectory(path, NULL)`. -/
def createDirectory (backslash : CharT) (v : Volume CharT) (path : List CharT) : Volume CharT :=
  v.make (resolve backslash path)

/-! ## `CreateDirectoryD` -/

/-- The variable `add_path`, and the directories. -/
structure Adding (CharT : Type) where
  add_path : List CharT
  volume : Volume CharT

/-- A round of the loop. -/
def addDirectory (backslash : CharT) (s : Adding CharT) (t : List CharT) : Adding CharT :=
  let add_path := s.add_path ++ t
  let add_path := add_path ++ [backslash]
  ⟨add_path, createDirectory backslash s.volume add_path⟩

/-- What is done with the pieces of the path. -/
def createDirectories (backslash : CharT) (vec_split : List (List CharT)) (v : Volume CharT) :
    Volume CharT :=
  match vec_split with
  | [] => v
  | [_] => v
  | first :: rest => (rest.foldl (addDirectory backslash) ⟨first ++ [backslash], v⟩).volume

/-- `CreateDirectoryD(path)`. -/
def createDirectoryD (backslash : CharT) (path : List CharT) (v : Volume CharT) (fuel : ℕ) :
    Option (Volume CharT) :=
  (splitStringChar path backslash [] fuel).map fun vec_split =>
    createDirectories backslash vec_split v

/-! ## Components -/

variable {backslash : CharT}

/-- What is behind a backslash is below. -/
theorem resolve_append (path rest : List CharT) :
    resolve backslash (path ++ backslash :: rest)
      = resolve backslash path ++ (rest.splitOn backslash).filter (· ≠ []) := by
  rw [resolve, resolve, List.splitOn_append_cons_self]
  cases hsplit : path.splitOn backslash with
  | nil => exact absurd hsplit (List.splitOn_ne_nil _ _)
  | cons root below => simp only [List.cons_append, List.filter_append]

theorem resolve_ne_nil (path : List CharT) : resolve backslash path ≠ [] := by
  rw [resolve]
  split
  next hsplit => exact absurd hsplit (List.splitOn_ne_nil _ _)
  next => exact List.cons_ne_nil _ _

/-- Backslashes at the end make no difference. -/
theorem resolve_trailing (path : List CharT) (n : ℕ) :
    resolve backslash (path ++ List.replicate n backslash) = resolve backslash path := by
  induction n with
  | zero => rw [List.replicate_zero, List.append_nil]
  | succ n ih =>
      rw [List.replicate_succ', ← List.append_assoc, resolve_append, List.splitOn_nil, ih]
      exact List.append_nil _

/-- Nor do more backslashes where there is one. -/
theorem resolve_repeated (path rest : List CharT) (n : ℕ) :
    resolve backslash (path ++ List.replicate (n + 1) backslash ++ rest)
      = resolve backslash (path ++ backslash :: rest) := by
  rw [List.replicate_succ', List.append_assoc, List.append_assoc, List.singleton_append,
    ← List.append_assoc, resolve_append, resolve_append, resolve_trailing]

/-! ## One directory -/

/-- With a path that is there, what is behind one more backslash is made. -/
theorem isDirectory_createDirectory {v : Volume CharT} {path : List CharT}
    (hpath : v.isDirectory (resolve backslash path) = true) {t : List CharT} (ht : backslash ∉ t)
    (e : List (List CharT)) :
    (createDirectory backslash v (path ++ backslash :: t ++ [backslash])).isDirectory e = true
      ↔ v.isDirectory e = true ∨ e = resolve backslash (path ++ backslash :: t) := by
  have hresolve : resolve backslash (path ++ backslash :: t ++ [backslash])
      = resolve backslash (path ++ backslash :: t) := resolve_trailing _ 1
  have hbelow : resolve backslash (path ++ backslash :: t)
      = resolve backslash path ++ [t].filter (· ≠ []) := by
    rw [resolve_append, List.splitOn_eq_singleton ht]
  rw [createDirectory, hresolve, Volume.isDirectory_make, hbelow]
  by_cases hempty : t = []
  · -- an empty component: the directory is the path, which is there
    have hsame : resolve backslash path ++ [t].filter (· ≠ []) = resolve backslash path := by
      rw [hempty]
      exact List.append_nil _
    rw [hsame]
    constructor
    · rintro (h | ⟨rfl, -⟩)
      · exact Or.inl h
      · exact Or.inl hpath
    · rintro (h | rfl)
      · exact Or.inl h
      · exact Or.inl hpath
  · have hone : resolve backslash path ++ [t].filter (· ≠ []) = resolve backslash path ++ [t] := by
      simp [hempty]
    have hparent : resolve backslash path ≠ []
        ∧ v.isDirectory (resolve backslash path) = true := ⟨resolve_ne_nil path, hpath⟩
    rw [hone, List.dropLast_concat]
    simp only [hparent, ne_eq, not_false_eq_true, and_true]

omit [DecidableEq CharT] in
/-- The nonempty prefixes of a path that is there are there. -/
theorem isDirectory_or_prefix {v : Volume CharT} {d : List (List CharT)}
    (hd : v.isDirectory d = true) (e : List (List CharT)) :
    v.isDirectory e = true ↔ v.isDirectory e = true ∨ (e ≠ [] ∧ e <+: d) := by
  constructor
  · exact Or.inl
  · rintro (h | ⟨hne, h⟩)
    · exact h
    · exact v.isDirectory_of_prefix hne h hd

/-- **The loop** makes what is between the path so far and the whole path. -/
theorem isDirectory_foldl {ts : List (List CharT)} (hts : ∀ t ∈ ts, backslash ∉ t)
    {v : Volume CharT} {path : List CharT}
    (hpath : v.isDirectory (resolve backslash path) = true) (e : List (List CharT)) :
    (ts.foldl (addDirectory backslash) ⟨path ++ [backslash], v⟩).volume.isDirectory e = true
      ↔ v.isDirectory e = true
        ∨ (e ≠ [] ∧ e <+: resolve backslash path ++ ts.filter (· ≠ [])) := by
  induction ts generalizing v path with
  | nil =>
      rw [List.filter_nil, List.append_nil]
      exact isDirectory_or_prefix hpath e
  | cons t ts ih =>
      have ht := hts t List.mem_cons_self
      have hround : addDirectory backslash ⟨path ++ [backslash], v⟩ t
          = ⟨path ++ backslash :: t ++ [backslash],
            createDirectory backslash v (path ++ backslash :: t ++ [backslash])⟩ := by
        simp only [addDirectory, List.append_assoc, List.singleton_append]
      have hmade := isDirectory_createDirectory hpath ht
      have hbelow : resolve backslash path ++ (t :: ts).filter (· ≠ [])
          = resolve backslash (path ++ backslash :: t) ++ ts.filter (· ≠ []) := by
        rw [resolve_append, List.splitOn_eq_singleton ht, List.append_assoc, ← List.filter_append,
          List.singleton_append]
      rw [List.foldl_cons, hround, ih (fun t ht => hts t (List.mem_cons_of_mem _ ht))
        ((hmade _).mpr (Or.inr rfl)), hmade, hbelow]
      -- the directory that the round makes is a prefix of the whole path
      have hprefix : e = resolve backslash (path ++ backslash :: t) → e ≠ []
          ∧ e <+: resolve backslash (path ++ backslash :: t) ++ ts.filter (· ≠ []) := by
        rintro rfl
        exact ⟨resolve_ne_nil _, List.prefix_append _ _⟩
      tauto

/-! ## The whole chain -/

theorem createDirectories_cons (first : List CharT) (rest : List (List CharT))
    (v : Volume CharT) :
    createDirectories backslash (first :: rest) v
      = (rest.foldl (addDirectory backslash) ⟨first ++ [backslash], v⟩).volume := by
  cases rest <;> rfl

theorem createDirectories_fromStream_single (root : List CharT) (v : Volume CharT) :
    createDirectories backslash (fromStream [root]) v = v := by
  rw [fromStream]
  split <;> rfl

/-- What the stream leaves out is empty. -/
theorem filter_fromStream (pieces : List (List CharT)) :
    (fromStream pieces).filter (· ≠ []) = pieces.filter (· ≠ []) := by
  rw [fromStream]
  split
  next hlast =>
    obtain ⟨init, hinit⟩ := List.getLast?_eq_some_iff.mp hlast
    rw [hinit, List.dropLast_concat, List.filter_append]
    exact (List.append_nil _).symm
  next => rfl

theorem mem_of_mem_fromStream {pieces : List (List CharT)} {t : List CharT}
    (h : t ∈ fromStream pieces) : t ∈ pieces := by
  rw [fromStream] at h
  split at h
  next => exact List.mem_of_mem_dropLast h
  next => exact h

/-- What is returned, for a path whose root is there. -/
theorem createDirectoryD_returns (path : List CharT) {v : Volume CharT} {root : List CharT}
    {below : List (List CharT)} (hpath : resolve backslash path = root :: below)
    (hroot : v.isDirectory [root] = true) :
    ∃ r, Returns (createDirectoryD backslash path v) r ∧
      ∀ d, r.isDirectory d = true ↔ v.isDirectory d = true ∨ (d ≠ [] ∧ d <+: root :: below) := by
  obtain ⟨pieces, hcuts⟩ := exists_cuts (List.cons_ne_nil backslash []) path
  have hclean : ∀ piece ∈ pieces, backslash ∉ piece := by
    intro piece hpiece hmem
    rw [← List.singleton_infix_iff] at hmem
    exact hcuts.not_infix (List.cons_ne_nil _ _) piece hpiece hmem
  have hsplit : path.splitOn backslash = pieces := by
    rw [← hcuts.join]
    exact List.splitOn_intercalate backslash hclean hcuts.ne_nil
  refine ⟨createDirectories backslash (fromStream pieces) v, ?_, ?_⟩
  · obtain ⟨fuel, hfuel⟩ := ends_tokens hcuts []
    refine ⟨fuel, ?_⟩
    rw [createDirectoryD, splitStringChar, hfuel]
    rfl
  · rw [resolve, hsplit] at hpath
    cases hcases : pieces with
    | nil => exact absurd hcases hcuts.ne_nil
    | cons first rest =>
        rw [hcases] at hpath
        obtain ⟨rfl, rfl⟩ := List.cons.inj hpath
        intro d
        by_cases hrest : rest = []
        · -- only the root, and nothing is made
          rw [hrest, createDirectories_fromStream_single]
          exact isDirectory_or_prefix hroot d
        · have hfirst : resolve backslash first = [first] := by
            rw [resolve, List.splitOn_eq_singleton (hclean first (hcases ▸ List.mem_cons_self))]
            rfl
          have hts : ∀ t ∈ fromStream rest, backslash ∉ t := fun t ht =>
            hclean t (hcases ▸ List.mem_cons_of_mem _ (mem_of_mem_fromStream ht))
          rw [fromStream_cons first hrest, createDirectories_cons,
            isDirectory_foldl hts (hfirst.symm ▸ hroot), hfirst, filter_fromStream]
          rfl

/-- **The whole chain is made.** With the root there, every prefix of the path is a directory
afterwards, and no other directory has been added; more backslashes at the end, or where
there is one, make no difference. -/
theorem createDirectoryD_chain (path : List CharT) (v : Volume CharT) (root : List CharT)
    (below : List (List CharT)) (hpath : resolve backslash path = root :: below)
    (hroot : v.isDirectory [root] = true) :
    ∃ r, Returns (createDirectoryD backslash path v) r
      ∧ (∀ d, r.isDirectory d = true
        ↔ v.isDirectory d = true ∨ (d ≠ [] ∧ d <+: root :: below))
      ∧ (∀ n, Returns (createDirectoryD backslash (path ++ List.replicate n backslash) v) r)
      ∧ ∀ a b n, path = a ++ backslash :: b →
        Returns (createDirectoryD backslash (a ++ List.replicate (n + 1) backslash ++ b) v) r := by
  obtain ⟨r, hr, hchain⟩ := createDirectoryD_returns path hpath hroot
  -- what is returned depends on the components only
  have hsame : ∀ path', resolve backslash path' = resolve backslash path →
      Returns (createDirectoryD backslash path' v) r := by
    intro path' hpath'
    obtain ⟨r', hr', hchain'⟩ := createDirectoryD_returns path' (hpath'.trans hpath) hroot
    have heq : r' = r := Volume.eq_of_iff fun d => (hchain' d).trans (hchain d).symm
    exact heq ▸ hr'
  refine ⟨r, hr, hchain, fun n => hsame _ (resolve_trailing path n), ?_⟩
  rintro a b n rfl
  exact hsame _ (resolve_repeated a b n)

/-- The volume of a drive with nothing on it. -/
def emptyDrive (root : List CharT) : Volume CharT where
  isDirectory d := decide (d = [root])
  closed d c hne h := by
    rw [decide_eq_true_eq] at h
    have hlength := congrArg List.length h
    have hpos := List.length_pos_of_ne_nil hne
    simp only [List.length_append, List.length_cons, List.length_nil] at hlength
    omega

/-- `C:\a\b`, with 92 for the backslash. -/
theorem createDirectoryD_chain_drive :
    ∃ r, Returns (createDirectoryD 92 [67, 58, 92, 97, 92, 98] (emptyDrive [67, 58])) r
      ∧ (∀ d, r.isDirectory d = true
        ↔ (emptyDrive [67, 58]).isDirectory d = true ∨ (d ≠ [] ∧ d <+: [[67, 58], [97], [98]]))
      ∧ (∀ n, Returns (createDirectoryD 92 ([67, 58, 92, 97, 92, 98] ++ List.replicate n 92)
        (emptyDrive [67, 58])) r)
      ∧ ∀ (a b : List ℕ) n, [67, 58, 92, 97, 92, 98] = a ++ 92 :: b →
        Returns (createDirectoryD 92 (a ++ List.replicate (n + 1) 92 ++ b)
          (emptyDrive [67, 58])) r :=
  createDirectoryD_chain [67, 58, 92, 97, 92, 98] (emptyDrive [67, 58]) [67, 58] [[97], [98]]
    (by decide) (by decide)

end PocoProxy.Directories

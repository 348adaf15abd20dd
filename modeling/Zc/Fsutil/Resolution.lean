import Zc.Fsutil.Contained
import Zc.Str.Trim

/-!
# Resolution of pathnames

`read_contained` against the resolution of pathnames as POSIX has it, where `..` is the parent of the
directory that was reached and a symbolic link is replaced by its text. The stack of the loop is the
chain of parents below the root, so the loop follows the resolution step by step and never above the
root.
-/

namespace zc.fsutil

/-! ## Pathnames -/

/-- A name an entry can have. -/
structure Ordinary (name : String) : Prop where
  ne_empty : name ≠ ""
  ne_dot : name ≠ "."
  ne_dots : name ≠ ".."
  no_separator : '/' ∉ name.toList

/-- How far a resolution is: the directory it came to and the pieces that are left. -/
structure Lookup where
  dir : Nat
  rest : List String
  deriving DecidableEq

/-- A path taken up in a directory, before further pieces. The root of the file system is inode 0. -/
def Lookup.start (dir : Nat) (path : String) (rest : List String) : Lookup where
  dir := if is_absolute path then 0 else dir
  rest := str.split path '/' ++ rest

/-- The root of the file system is its own parent. -/
def Parent (fs : Fs) (dir up : Nat) : Prop :=
  dir = 0 ∧ up = 0 ∨ ∃ name, fs.lookup up name = some (.dir dir)

/-- One step of a resolution, and whether it follows a symbolic link. -/
inductive Resolves (fs : Fs) : Bool → Lookup → Lookup → Prop
  | skip {dir : Nat} {piece : String} {rest : List String} (hpiece : skipped piece = true) :
    Resolves fs false ⟨dir, piece :: rest⟩ ⟨dir, rest⟩
  | parent {dir up : Nat} {rest : List String} (hparent : Parent fs dir up) :
    Resolves fs false ⟨dir, ".." :: rest⟩ ⟨up, rest⟩
  | enter {dir ino : Nat} {name : String} {rest : List String} (hname : Ordinary name)
    (hdir : fs.lookup dir name = some (.dir ino)) : Resolves fs false ⟨dir, name :: rest⟩ ⟨ino, rest⟩
  | link {dir : Nat} {name text : String} {target : List UInt8} {rest : List String} (hname : Ordinary name)
    (hlink : fs.lookup dir name = some (.symlink target)) (htext : str.from_utf8 target = some text) :
    Resolves fs true ⟨dir, name :: rest⟩ (.start dir text rest)

/-- What is left names a regular file, if the `ignored` pieces after its name do not count. -/
def Denotes (fs : Fs) (ignored : String → Bool) (lookup : Lookup) (ino : Nat) : Prop :=
  ∃ name rest, lookup.rest = name :: rest ∧ rest.all ignored = true ∧ Ordinary name ∧
    fs.lookup lookup.dir name = some (.file ino)

/-- From directory to directory, by names. -/
inductive Descends (fs : Fs) : Nat → List String → Nat → Prop
  | here {dir : Nat} : Descends fs dir [] dir
  | into {dir next ino : Nat} {name : String} {names : List String} (hname : Ordinary name)
    (hdir : fs.lookup dir name = some (.dir next)) (hnames : Descends fs next names ino) : Descends fs dir (name :: names) ino

/-- The components among some pieces. -/
def kept (pieces : List String) : List String :=
  pieces.filter fun piece => piece != "" && piece != "."

/-- The resolution is at the root or below it, or above it with the way down to it next. -/
inductive Inside (fs : Fs) (root : Nat) : Lookup → Prop
  | below {dir : Nat} {names rest : List String} (hbelow : Descends fs root names dir) : Inside fs root ⟨dir, rest⟩
  | above {dir : Nat} {names rest : List String} (hroot : Descends fs dir names root) (hrest : names <+: kept rest) :
    Inside fs root ⟨dir, rest⟩

/-- A resolution that stays inside, and the number of symbolic links it follows. -/
inductive Run (fs : Fs) (root : Nat) : Nat → Lookup → Lookup → Prop
  | done {last : Lookup} (hinside : Inside fs root last) : Run fs root 0 last last
  | step {link : Bool} {hops : Nat} {now next last : Lookup} (hinside : Inside fs root now) (hstep : Resolves fs link now next)
    (hrun : Run fs root hops next last) : Run fs root (hops + link.toNat) now last

/-- A file below the root whose path there has no symbolic link, and its bytes. -/
def Found (fs : Fs) (root : Nat) (target : String) (bytes : List UInt8) (ino : Nat) : Prop :=
  ∃ names name dir, target = "/".intercalate (names ++ [name]) ∧ Descends fs root names dir ∧ Ordinary name ∧
    fs.lookup dir name = some (.file ino) ∧ (fs.inodes ino).data = bytes

/-! ## Pieces -/

variable {piece : String}

theorem not_skipped_iff : skipped piece = false ↔ (piece != "" && piece != ".") = true := by
  simp [skipped]

variable {rest : List String}

theorem kept_cons_skipped (hpiece : skipped piece = true) : kept (piece :: rest) = kept rest := by
  rw [kept, List.filter_cons_of_neg, kept]
  rw [← not_skipped_iff, hpiece]
  decide

theorem kept_cons (hpiece : skipped piece = false) : kept (piece :: rest) = piece :: kept rest := by
  rw [kept, List.filter_cons_of_pos, kept]
  exact not_skipped_iff.1 hpiece

theorem kept_append (pieces rest : List String) : kept (pieces ++ rest) = kept pieces ++ kept rest :=
  List.filter_append ..

theorem all_skipped_of_kept (hkept : kept rest = []) : rest.all skipped = true := by
  rw [List.all_eq_true]
  intro piece hpiece
  by_contra hne
  exact List.filter_eq_nil_iff.1 hkept piece hpiece (not_skipped_iff.1 (Bool.not_eq_true _ ▸ hne))

variable {name : String}

theorem Ordinary.not_skipped (hname : Ordinary name) : skipped name = false := by
  simp [skipped, hname.ne_empty, hname.ne_dot]

theorem kept_dropWhile (pieces : List String) : kept (pieces.dropWhile skipped) = kept pieces := by
  induction pieces with
  | nil => rfl
  | cons piece rest ih =>
    cases hpiece : skipped piece with
    | true => rw [List.dropWhile_cons_of_pos hpiece, ih, kept_cons_skipped hpiece]
    | false => rw [List.dropWhile_cons_of_neg (Bool.eq_false_iff.1 hpiece)]

theorem kept_rdropWhile (pieces : List String) : kept (pieces.rdropWhile skipped) = kept pieces := by
  rw [List.rdropWhile, kept, List.filter_reverse, ← kept, kept_dropWhile, kept, List.filter_reverse, List.reverse_reverse, kept]

variable {names pieces : List String}

/-- What is stripped are the root's components. -/
theorem kept_of_stripPieces (hstrip : stripPieces names pieces = some rest) : kept pieces = names ++ kept rest := by
  induction pieces generalizing names with
  | nil =>
    cases names with
    | nil =>
      cases hstrip
      rfl
    | cons name names => cases hstrip
  | cons piece pieces ih =>
    cases names with
    | nil =>
      cases hstrip
      rw [kept_rdropWhile, kept_dropWhile, List.nil_append]
    | cons name names =>
      rw [stripPieces] at hstrip
      cases hpiece : skipped piece with
      | true =>
        rw [if_pos hpiece] at hstrip
        rw [kept_cons_skipped hpiece, ih hstrip]
      | false =>
        rw [if_neg (Bool.eq_false_iff.1 hpiece)] at hstrip
        split at hstrip
        · next heq => rw [kept_cons hpiece, ih hstrip, heq, List.cons_append]
        · cases hstrip

variable {root_path : String}

theorem kept_of_stripRoot {path : String} (hstrip : stripRoot root_path path = some pieces) :
    kept (str.split path '/') = components root_path ++ kept pieces := by
  obtain ⟨rest, hrest, rfl⟩ := Option.map_eq_some_iff.1 hstrip
  rw [kept_of_stripPieces hrest]
  split
  · next hnil =>
    rw [hnil]
    rfl
  · rfl

theorem subset_of_stripPieces (hstrip : stripPieces names pieces = some rest) : rest ⊆ pieces := by
  induction pieces generalizing names with
  | nil =>
    cases names with
    | nil =>
      cases hstrip
      exact fun _ h => h
    | cons name names => cases hstrip
  | cons piece pieces ih =>
    cases names with
    | nil =>
      cases hstrip
      exact fun _ h => (List.dropWhile_sublist _).subset ((List.rdropWhile_prefix _ _).subset h)
    | cons name names =>
      rw [stripPieces] at hstrip
      split at hstrip
      · exact fun _ h => List.mem_cons_of_mem _ (ih hstrip h)
      · split at hstrip
        · exact fun _ h => List.mem_cons_of_mem _ (ih hstrip h)
        · cases hstrip

theorem no_separator_stripRoot {path : String} (hstrip : stripRoot root_path path = some pieces) :
    ∀ piece ∈ pieces, '/' ∉ piece.toList := by
  obtain ⟨rest, hrest, rfl⟩ := Option.map_eq_some_iff.1 hstrip
  split
  · intro piece hpiece
    obtain rfl := List.mem_singleton.1 hpiece
    decide
  · exact fun piece hpiece => str.not_mem_of_mem_split (subset_of_stripPieces hrest hpiece)

/-! ## Runs -/

variable {fs : Fs} {dir ino : Nat}

theorem Descends.snoc {mid : Nat} (hnames : Descends fs dir names mid) (hname : Ordinary name)
    (hdir : fs.lookup mid name = some (.dir ino)) : Descends fs dir (names ++ [name]) ino := by
  induction hnames with
  | here => exact .into hname hdir .here
  | into hfirst hlookup _ ih => exact .into hfirst hlookup (ih hdir)

variable {root : Nat}

theorem Inside.of_kept {other : List String} (hinside : Inside fs root ⟨dir, rest⟩) (hkept : kept other = kept rest) :
    Inside fs root ⟨dir, other⟩ := by
  cases hinside with
  | below hbelow => exact .below hbelow
  | above hroot hrest => exact .above hroot (hkept ▸ hrest)

section Running

variable {fs : Fs} {root : Nat}

/-- A resolution skips to the next component. -/
theorem exists_component (hinside : Inside fs root ⟨dir, pieces⟩) (hkept : kept pieces = name :: rest) :
    ∃ rest', kept rest' = rest ∧ kept (name :: rest') = kept pieces ∧
      ∀ hops last, Run fs root hops ⟨dir, name :: rest'⟩ last → Run fs root hops ⟨dir, pieces⟩ last := by
  induction pieces with
  | nil => cases hkept
  | cons piece pieces ih =>
    cases hpiece : skipped piece with
    | true =>
      have htail : kept (piece :: pieces) = kept pieces := kept_cons_skipped hpiece
      obtain ⟨rest', hrest, hsame, hrun⟩ := ih (hinside.of_kept htail.symm) (htail ▸ hkept)
      exact ⟨rest', hrest, hsame.trans htail.symm, fun hops last hlast => .step hinside (.skip hpiece) (hrun hops last hlast)⟩
    | false =>
      rw [kept_cons hpiece] at hkept
      cases hkept
      exact ⟨pieces, rfl, rfl, fun _ _ hlast => hlast⟩

/-- A resolution goes down to the root when its components begin with the way there. -/
theorem exists_descent (hroot : Descends fs dir names root) (hkept : kept pieces = names ++ rest) :
    ∃ rest', kept rest' = rest ∧ ∀ hops last, Run fs root hops ⟨root, rest'⟩ last → Run fs root hops ⟨dir, pieces⟩ last := by
  induction hroot generalizing pieces with
  | here => exact ⟨pieces, hkept, fun _ _ hlast => hlast⟩
  | @into dir next ino name names hname hdir hnames ih =>
    have hinside : Inside fs ino ⟨dir, pieces⟩ := .above (.into hname hdir hnames) ⟨rest, hkept.symm⟩
    obtain ⟨pieces', hpieces, hsame, hskip⟩ := exists_component hinside hkept
    obtain ⟨rest', hrest, hdown⟩ := ih hpieces
    refine ⟨rest', hrest, fun hops last hlast => hskip _ _ ?_⟩
    exact .step (hinside.of_kept hsame) (.enter hname hdir) (hdown hops last hlast)

end Running

/-! ## The loop -/

/-- The directories of a position, each in the one after it, down from the root. -/
inductive Chain (fs : Fs) (root : Nat) : List Nat → List String → Prop
  | root : Chain fs root [root] []
  | into {dir ino : Nat} {name : String} {dirs : List Nat} {names : List String} (hname : Ordinary name)
    (hdir : fs.lookup dir name = some (.dir ino)) (hchain : Chain fs root (dir :: dirs) names) :
    Chain fs root (ino :: dir :: dirs) (name :: names)

theorem Chain.descends {dirs : List Nat} (hchain : Chain fs root dirs names) :
    Descends fs root names.reverse (dirs.headD 0) := by
  induction hchain with
  | root => exact .here
  | into hname hdir _ ih =>
    rw [List.reverse_cons]
    exact ih.snoc hname hdir

theorem Chain.cons {fs : Fs} {root ino : Nat} {dirs : List Nat} {name : String} {names : List String} (hchain : Chain fs root dirs names)
    (hname : Ordinary name) (hdir : fs.lookup (dirs.headD 0) name = some (.dir ino)) : Chain fs root (ino :: dirs) (name :: names) := by
  cases hchain with
  | root => exact .into hname hdir .root
  | into hname' hdir' hchain => exact .into hname hdir (.into hname' hdir' hchain)

variable {position : Position}

theorem read_last_eq_ok {part target : String} {limit : Nat} {bytes : List UInt8}
    (hread : fs.read_last position part limit = .ok (target, bytes)) :
    target = "/".intercalate (position.names.reverse ++ [part]) ∧
      ∃ ino, fs.lookup (position.dirs.headD 0) part = some (.file ino) ∧ (fs.inodes ino).data = bytes := by
  simp only [Fs.read_last, bind_eq_ok_iff] at hread
  obtain ⟨m, hopen, _, hcheck, data, hdata, hpair⟩ := hread
  cases hpair
  refine ⟨by rw [List.reverse_cons], ?_⟩
  simp only [check_metadata, bind_eq_ok_iff, ensure_eq_ok_iff, exists_const] at hcheck
  have hfile : m.is_file = true := hcheck.1
  simp only [Fs.read_bounded, bind_eq_ok_iff] at hdata
  obtain ⟨-, -, -, -, -, -, hdata⟩ := hdata
  cases hdata
  unfold Fs.openat at hopen
  split at hopen
  · cases hopen
  · cases hopen
  · cases hopen
    cases hfile
  · next node hsymlink hdir hlookup =>
    cases hopen
    cases node with
    | dir ino => exact absurd rfl (hdir ino)
    | symlink target => exact absurd rfl (hsymlink target)
    | other => cases hfile
    | file ino => exact ⟨ino, hlookup, rfl⟩

theorem open_directory_eq_ok {m : Metadata} (hopen : fs.open_directory dir name = .ok m) :
    fs.lookup dir name = some (.dir m.ino) := by
  unfold Fs.open_directory at hopen
  split at hopen
  · cases hopen
  · next ino hdir =>
    cases hopen
    exact hdir
  · cases hopen

variable {next : Position} {text : String} {hops : Nat}

section Loop

variable {fs : Fs} {root limit : Nat} {root_path target : String} {bytes : List UInt8}

/-- A path is taken up as the loop does it: from the root if it is absolute, where it must begin with the root's own path. -/
inductive TakenUp (root : Nat) (root_path text : String) (position : Position) : Position → List String → Prop
  | absolute {pieces : List String} (habsolute : is_absolute text = true) (hstrip : stripRoot root_path text = some pieces) :
    TakenUp root root_path text position ⟨[root], []⟩ pieces
  | relative (hrelative : is_absolute text = false) : TakenUp root root_path text position position (str.split text '/')

theorem follow_eq_ok {link : List UInt8} (hfollow : follow root root_path position link = .ok (next, pieces)) :
    ∃ text, str.from_utf8 link = some text ∧ TakenUp root root_path text position next pieces := by
  simp only [follow, bind_eq_ok_iff, okOr_eq_ok_iff] at hfollow
  obtain ⟨text, htext, hfollow⟩ := hfollow
  refine ⟨text, htext, ?_⟩
  cases habsolute : is_absolute text with
  | true =>
    simp only [habsolute, if_true, bind_eq_ok_iff, okOr_eq_ok_iff] at hfollow
    obtain ⟨rest, hrest, hpair⟩ := hfollow
    cases hpair
    exact .absolute habsolute hrest
  | false =>
    rw [habsolute, if_neg (by decide)] at hfollow
    cases hfollow
    exact .relative habsolute

theorem relative_pieces_eq_ok {logical : String} {pieces : List String} (hpieces : relative_pieces root_path logical = .ok pieces) :
    TakenUp root root_path logical ⟨[root], []⟩ ⟨[root], []⟩ pieces := by
  unfold relative_pieces at hpieces
  split at hpieces
  · next habsolute => exact .absolute habsolute (okOr_eq_ok_iff.1 hpieces)
  · next hrelative =>
    cases hpieces
    exact .relative (Bool.eq_false_iff.2 hrelative)

theorem TakenUp.chain (htaken : TakenUp root root_path text position next pieces)
    (hchain : Chain fs root position.dirs position.names) : Chain fs root next.dirs next.names := by
  cases htaken with
  | absolute _ _ => exact .root
  | relative _ => exact hchain

theorem TakenUp.no_separator (htaken : TakenUp root root_path text position next pieces) :
    ∀ piece ∈ pieces, '/' ∉ piece.toList := by
  cases htaken with
  | absolute _ hstrip => exact no_separator_stripRoot hstrip
  | relative _ => exact fun piece hpiece => str.not_mem_of_mem_split hpiece

/-- The resolution of the path comes to where the loop takes it up. -/
theorem TakenUp.exists_run (hroot : Descends fs 0 (components root_path) root)
    (htaken : TakenUp root root_path text position next pieces) (rest : List String) :
    ∃ rest', kept rest' = kept (pieces ++ rest) ∧ ∀ hops last, Run fs root hops ⟨next.dirs.headD 0, rest'⟩ last →
      Run fs root hops (.start (position.dirs.headD 0) text rest) last := by
  cases htaken with
  | absolute habsolute hstrip =>
    have hkept : kept (str.split text '/' ++ rest) = components root_path ++ kept (pieces ++ rest) := by
      rw [kept_append, kept_of_stripRoot hstrip, List.append_assoc, kept_append]
    rw [Lookup.start, if_pos habsolute]
    exact exists_descent hroot hkept
  | relative hrelative =>
    rw [Lookup.start, if_neg (Bool.eq_false_iff.1 hrelative)]
    exact ⟨str.split text '/' ++ rest, rfl, fun _ _ hlast => hlast⟩

/-- What the loop finds is what the resolution of anything with the same components finds. -/
theorem walk_resolves (hroot : Descends fs 0 (components root_path) root) {steps : Nat} {pending : List String}
    (hchain : Chain fs root position.dirs position.names) (hpending : ∀ piece ∈ pending, '/' ∉ piece.toList)
    (hkept : kept pieces = kept pending) (hhops : hops ≤ HOP_LIMIT)
    (hwalk : fs.walk root root_path limit steps hops position pending = .ok (target, bytes)) :
    ∃ ino, Found fs root target bytes ino ∧ ∃ more last, hops + more ≤ HOP_LIMIT ∧
      Run fs root more ⟨position.dirs.headD 0, pieces⟩ last ∧ Denotes fs skipped last ino := by
  induction steps generalizing hops position pending pieces with
  | zero =>
    cases pending with
    | nil => cases hwalk
    | cons part pending => cases hwalk
  | succ steps ih =>
    cases pending with
    | nil => cases hwalk
    | cons part pending =>
      obtain ⟨hpart, htail⟩ := List.forall_mem_cons.1 hpending
      have hinside : ∀ rest, Inside fs root ⟨position.dirs.headD 0, rest⟩ := fun _ => .below hchain.descends
      rw [Fs.walk] at hwalk
      by_cases hskip : part = "" ∨ part = "."
      · rw [if_pos hskip] at hwalk
        have hskipped : skipped part = true := by simpa [skipped] using hskip
        exact ih hchain htail (hkept.trans (kept_cons_skipped hskipped)) hhops hwalk
      rw [if_neg hskip] at hwalk
      have hcomponent : skipped part = false := by simpa [skipped] using hskip
      rw [kept_cons hcomponent] at hkept
      obtain ⟨rest, hrest, -, hcome⟩ := exists_component (hinside pieces) hkept
      by_cases hdots : part = ".."
      · rw [if_pos hdots] at hwalk
        subst hdots
        obtain ⟨dirs, names⟩ := position
        cases hchain with
        | root => cases hwalk
        | @into dir ino name dirs names hname hdir hchain =>
          rw [if_neg (by simp)] at hwalk
          obtain ⟨file, hfound, more, last, hmore, hrun, hlast⟩ := ih hchain htail hrest hhops hwalk
          exact ⟨file, hfound, more, last, hmore, hcome _ _ (.step (hinside _) (.parent (.inr ⟨name, hdir⟩)) hrun), hlast⟩
      rw [if_neg hdots] at hwalk
      have hname : Ordinary part := ⟨fun h => hskip (.inl h), fun h => hskip (.inr h), hdots, hpart⟩
      split at hwalk
      · next link hlink =>
        split at hwalk
        · cases hwalk
        next hlimit =>
        split at hwalk
        · cases hwalk
        next next followed hfollow =>
        obtain ⟨text, htext, htaken⟩ := follow_eq_ok hfollow
        obtain ⟨rest', hrest', hup⟩ := htaken.exists_run hroot rest
        have hkept' : kept rest' = kept (followed ++ pending) := by
          rw [hrest', kept_append, hrest, kept_append]
        obtain ⟨file, hfound, more, last, hmore, hrun, hlast⟩ := ih (htaken.chain hchain)
          (List.forall_mem_append.2 ⟨htaken.no_separator, htail⟩) hkept' (by omega) hwalk
        exact ⟨file, hfound, more + 1, last, by omega,
          hcome _ _ (.step (hinside _) (.link hname hlink htext) (hup _ _ hrun)), hlast⟩
      · split at hwalk
        · next hnil =>
          subst hnil
          obtain ⟨rfl, ino, hfile, hdata⟩ := read_last_eq_ok hwalk
          exact ⟨ino, ⟨_, part, _, rfl, hchain.descends, hname, hfile, hdata⟩, 0, ⟨_, part :: rest⟩, hhops,
            hcome _ _ (.done (hinside _)), part, rest, rfl, all_skipped_of_kept hrest, hname, hfile⟩
        · split at hwalk
          · cases hwalk
          next m hopen =>
          have hdir := open_directory_eq_ok hopen
          obtain ⟨file, hfound, more, last, hmore, hrun, hlast⟩ := ih (hchain.cons hname hdir) htail hrest hhops hwalk
          exact ⟨file, hfound, more, last, hmore, hcome _ _ (.step (hinside _) (.enter hname hdir) hrun), hlast⟩

end Loop

/-! ## One file -/

theorem Parent.unique {up up' : Nat} (hparent : Parent fs dir up) (hparent' : Parent fs dir up') : up = up' := by
  rcases hparent with ⟨rfl, rfl⟩ | ⟨name, hname⟩
  · rcases hparent' with ⟨-, rfl⟩ | ⟨name, hname⟩
    · rfl
    · exact absurd hname (fs.valid.root _)
  · rcases hparent' with ⟨rfl, -⟩ | ⟨name', hname'⟩
    · exact absurd hname (fs.valid.root _)
    · exact congrArg Prod.fst (fs.valid.one_parent _ _ _ hname hname')

/-- A resolution has one way to go on. -/
theorem Resolves.unique {link link' : Bool} {now next next' : Lookup} (hstep : Resolves fs link now next)
    (hstep' : Resolves fs link' now next') : next = next' := by
  cases hstep with
  | skip hpiece =>
    cases hstep' with
    | skip _ => rfl
    | parent _ => cases hpiece
    | enter hname _ => cases hname.not_skipped.symm.trans hpiece
    | link hname _ _ => cases hname.not_skipped.symm.trans hpiece
  | parent hparent =>
    cases hstep' with
    | skip hpiece => cases hpiece
    | parent hparent' => rw [hparent.unique hparent']
    | enter hname _ => exact absurd rfl hname.ne_dots
    | link hname _ _ => exact absurd rfl hname.ne_dots
  | enter hname hdir =>
    cases hstep' with
    | skip hpiece => cases hname.not_skipped.symm.trans hpiece
    | parent _ => exact absurd rfl hname.ne_dots
    | enter _ hdir' =>
      cases hdir.symm.trans hdir'
      rfl
    | link _ hlink _ => cases hdir.symm.trans hlink
  | link hname hlink htext =>
    cases hstep' with
    | skip hpiece => cases hname.not_skipped.symm.trans hpiece
    | parent _ => exact absurd rfl hname.ne_dots
    | enter _ hdir => cases hlink.symm.trans hdir
    | link _ hlink' htext' =>
      cases hlink.symm.trans hlink'
      cases htext.symm.trans htext'
      rfl

/-- Some steps of a resolution, wherever they lead. -/
def Reaches (fs : Fs) : Lookup → Lookup → Prop :=
  Relation.ReflTransGen fun now next => ∃ link, Resolves fs link now next

variable {last : Lookup}

theorem Run.reaches {now : Lookup} (hrun : Run fs root hops now last) : Reaches fs now last := by
  induction hrun with
  | done _ => exact .refl
  | step _ hstep _ ih => exact .head ⟨_, hstep⟩ ih

variable {ignored : String → Bool}

/-- At a regular file a resolution ends. -/
theorem Denotes.not_resolves {next : Lookup} (hlast : Denotes fs ignored last ino) (link : Bool) :
    ¬Resolves fs link last next := by
  obtain ⟨dir, pieces⟩ := last
  obtain ⟨name, rest, rfl, -, hname, hfile⟩ := hlast
  intro hstep
  cases hstep with
  | skip hpiece => cases hname.not_skipped.symm.trans hpiece
  | parent _ => exact hname.ne_dots rfl
  | enter _ hdir => cases hfile.symm.trans hdir
  | link _ hlink _ => cases hfile.symm.trans hlink

theorem Reaches.eq_of_denotes {next : Lookup} (hreaches : Reaches fs last next) (hlast : Denotes fs ignored last ino) :
    next = last := by
  rcases hreaches.cases_head with heq | ⟨_, ⟨link, hstep⟩, _⟩
  · exact heq.symm
  · exact absurd hstep (hlast.not_resolves link)

/-- A resolution comes to one regular file at most. -/
theorem Denotes.last_eq {ignored' : String → Bool} {start last' : Lookup} {ino' : Nat}
    (hreaches : Reaches fs start last) (hlast : Denotes fs ignored last ino) (hreaches' : Reaches fs start last')
    (hlast' : Denotes fs ignored' last' ino') : last' = last := by
  rcases Relation.ReflTransGen.total_of_right_unique (fun _ _ _ ⟨_, h⟩ ⟨_, h'⟩ => h.unique h') hreaches hreaches' with hmore | hmore
  · exact Reaches.eq_of_denotes hmore hlast
  · exact (Reaches.eq_of_denotes hmore hlast').symm

theorem Denotes.unique {start last' : Lookup} {ino' : Nat} (hreaches : Reaches fs start last)
    (hlast : Denotes fs ignored last ino) (hreaches' : Reaches fs start last') (hlast' : Denotes fs ignored last' ino') :
    ino' = ino := by
  obtain rfl := hlast.last_eq hreaches hreaches' hlast'
  obtain ⟨name, rest, hrest, -, -, hfile⟩ := hlast
  obtain ⟨name', rest', hrest', -, -, hfile'⟩ := hlast'
  cases hrest.symm.trans hrest'
  cases hfile.symm.trans hfile'
  rfl

/-! ## Turns -/

/-- The variables of the loop. -/
structure Loop where
  steps : Nat
  hops : Nat
  position : Position
  pending : List String

/-- One turn of the loop: the variables for the next one, or the target with its bytes. -/
def Fs.turn (fs : Fs) (root : Nat) (root_path : String) (limit : Nat) : Loop → Result (Loop ⊕ (String × List UInt8))
  | ⟨_, _, _, []⟩ => .error (invalid "asset is not a regular file")
  | ⟨steps, hops, position, part :: pending⟩ =>
    if STEP_LIMIT < steps + 1 then .error (invalid "asset path walk limit exceeded")
    else if part = "" ∨ part = "." then .ok (.inl ⟨steps + 1, hops, position, pending⟩)
    else if part = ".." then
      if position.dirs.length = 1 then .error (invalid "asset outside source root")
      else .ok (.inl ⟨steps + 1, hops, ⟨position.dirs.tail, position.names.tail⟩, pending⟩)
    else
      match fs.lookup (position.dirs.headD 0) part with
      | some (.symlink target) =>
        if HOP_LIMIT < hops + 1 then .error (invalid "too many asset symlinks")
        else
          match follow root root_path position target with
          | .error error => .error error
          | .ok (position, pieces) => .ok (.inl ⟨steps + 1, hops + 1, position, pieces ++ pending⟩)
      | _ =>
        if pending = [] then (fs.read_last position part limit).map .inr
        else
          match fs.open_directory (position.dirs.headD 0) part with
          | .error error => .error error
          | .ok m => .ok (.inl ⟨steps + 1, hops, ⟨m.ino :: position.dirs, part :: position.names⟩, pending⟩)

/-- The result of the loop if it ends within so many turns. -/
def Fs.turns (fs : Fs) (root : Nat) (root_path : String) (limit : Nat) : Nat → Loop → Option (Result (String × List UInt8))
  | 0, _ => none
  | count + 1, loop =>
    match fs.turn root root_path limit loop with
    | .error error => some (.error error)
    | .ok (.inl next) => fs.turns root root_path limit count next
    | .ok (.inr found) => some (.ok found)

/-- The loop ends one turn after the last step it may take. -/
theorem turns_eq_walk {limit : Nat} {left steps : Nat} {pending : List String} (hsteps : steps + left = STEP_LIMIT)
    (hhops : hops ≤ HOP_LIMIT) :
    fs.turns root root_path limit (left + 1) ⟨steps, hops, position, pending⟩ =
      some (fs.walk root root_path limit left hops position pending) := by
  induction left generalizing steps hops position pending with
  | zero =>
    cases pending with
    | nil => rfl
    | cons part pending =>
      have hlimit : STEP_LIMIT < steps + 1 := by omega
      rw [Fs.turns, Fs.turn, if_pos hlimit, Fs.walk]
      exact List.cons_ne_nil _ _
  | succ left ih =>
    cases pending with
    | nil => rfl
    | cons part pending =>
      have hlimit : ¬STEP_LIMIT < steps + 1 := by omega
      have hnext : steps + 1 + left = STEP_LIMIT := by omega
      rw [Fs.turns, Fs.turn, if_neg hlimit, Fs.walk]
      by_cases hskip : part = "" ∨ part = "."
      · rw [if_pos hskip, if_pos hskip]
        exact ih hnext hhops
      rw [if_neg hskip, if_neg hskip]
      by_cases hdots : part = ".."
      · rw [if_pos hdots, if_pos hdots]
        by_cases htop : position.dirs.length = 1
        · rw [if_pos htop, if_pos htop]
        · rw [if_neg htop, if_neg htop]
          exact ih hnext hhops
      rw [if_neg hdots, if_neg hdots]
      have hplain : (match (if pending = [] then (fs.read_last position part limit).map Sum.inr else
            match fs.open_directory (position.dirs.headD 0) part with
            | .error error => .error error
            | .ok m => .ok (Sum.inl ⟨steps + 1, hops, ⟨m.ino :: position.dirs, part :: position.names⟩, pending⟩)) with
          | .error error => some (.error error)
          | .ok (.inl next) => fs.turns root root_path limit (left + 1) next
          | .ok (.inr found) => some (.ok found)) =
          some (if pending = [] then fs.read_last position part limit else
            match fs.open_directory (position.dirs.headD 0) part with
            | .error error => .error error
            | .ok m => fs.walk root root_path limit left hops ⟨m.ino :: position.dirs, part :: position.names⟩ pending) := by
        by_cases hnil : pending = []
        · rw [if_pos hnil, if_pos hnil]
          cases fs.read_last position part limit with
          | error error => rfl
          | ok found => rfl
        · rw [if_neg hnil, if_neg hnil]
          cases fs.open_directory (position.dirs.headD 0) part with
          | error error => rfl
          | ok m => exact ih hnext hhops
      generalize fs.lookup (position.dirs.headD 0) part = found at hplain ⊢
      cases found with
      | none => exact hplain
      | some node =>
        cases node with
        | dir ino => exact hplain
        | file ino => exact hplain
        | other => exact hplain
        | symlink target =>
          by_cases hlast : hops = HOP_LIMIT
          · simp only [if_pos hlast, if_pos (show HOP_LIMIT < hops + 1 by omega)]
          · simp only [if_neg hlast, if_neg (show ¬HOP_LIMIT < hops + 1 by omega)]
            cases follow root root_path position target with
            | error error => rfl
            | ok followed => exact ih hnext (by omega)

/-! ## Reads below the root -/

/-- The result of `read_contained` if its loop ends within so many turns. -/
def Fs.read_contained_turns (fs : Fs) (root : Nat) (root_path logical : String) (limit count : Nat) :
    Option (Result (String × List UInt8)) :=
  match (do
    ensure (logical != "" && !logical.toList.contains '\x00') (invalid "invalid asset path")
    relative_pieces root_path logical) with
  | .error error => some (.error error)
  | .ok pieces => fs.turns root root_path limit count ⟨0, 0, ⟨[root], []⟩, pieces⟩

/-- A read below a root ends whatever the tree is. What it returns is a regular file below the root, by the path that has no
    symbolic link in it, and the same file that the resolution of the logical path finds without leaving the root. -/
theorem read_contained_resolves {fs : Fs} {root limit : Nat} {root_path logical : String}
    (hroot : Descends fs 0 (components root_path) root) :
    fs.read_contained_turns root root_path logical limit (STEP_LIMIT + 1) = some (fs.read_contained root root_path logical limit) ∧
    ∀ target bytes, fs.read_contained root root_path logical limit = .ok (target, bytes) →
      ∃ ino, Found fs root target bytes ino ∧ ∃ hops last, hops ≤ HOP_LIMIT ∧ Run fs root hops (.start root logical []) last ∧
        Denotes fs skipped last ino ∧
        ∀ last' ino', Reaches fs (.start root logical []) last' → Denotes fs skipped last' ino' → ino' = ino := by
  constructor
  · unfold Fs.read_contained_turns Fs.read_contained
    cases hensure : ensure (logical != "" && !logical.toList.contains '\x00') (invalid "invalid asset path") with
    | error error => rfl
    | ok _ =>
      cases hpieces : relative_pieces root_path logical with
      | error error => rfl
      | ok pieces => exact turns_eq_walk (Nat.zero_add _) (Nat.zero_le _)
  · intro target bytes hread
    simp only [Fs.read_contained, bind_eq_ok_iff] at hread
    obtain ⟨-, -, pieces, hpieces, hwalk⟩ := hread
    have htaken := @relative_pieces_eq_ok root root_path logical pieces hpieces
    obtain ⟨rest, hrest, hup⟩ := htaken.exists_run hroot []
    rw [List.append_nil] at hrest
    obtain ⟨ino, hfound, hops, last, hhops, hrun, hlast⟩ := walk_resolves hroot .root htaken.no_separator hrest (Nat.zero_le _) hwalk
    have hrun' := hup _ _ hrun
    refine ⟨ino, hfound, hops, last, by omega, hrun', hlast, fun last' ino' hreaches hlast' => ?_⟩
    exact hlast.unique hrun'.reaches hreaches hlast'

/-- A root directory `/R` with one file. -/
def smallTree : Fs :=
  ((Fs.initial.addDir 0 "R" (by decide)).addFile 1 "a" (by decide)).append 2 [1]

theorem smallTree_root : Descends smallTree 0 (components "/R") 1 := by
  have hcomponents : components "/R" = ["R"] := by decide
  rw [hcomponents]
  exact .into ⟨by decide, by decide, by decide, by decide⟩ rfl .here

theorem smallTree_found : smallTree.read_contained 1 "/R" "/R//a" 8 = .ok ("a", [1]) ∧
    ∃ ino, Found smallTree 1 "a" [1] ino ∧ ∃ hops last, hops ≤ HOP_LIMIT ∧ Run smallTree 1 hops (.start 1 "/R//a" []) last ∧
      Denotes smallTree skipped last ino := by
  have hread : smallTree.read_contained 1 "/R" "/R//a" 8 = .ok ("a", [1]) := by decide +kernel
  obtain ⟨ino, hfound, hops, last, hhops, hrun, hlast, -⟩ := (read_contained_resolves smallTree_root).2 _ _ hread
  exact ⟨hread, ino, hfound, hops, last, hhops, hrun, hlast⟩

/-- The last component of an absolute path may be followed by a dot, although it is no directory: with only the trailing
    separators ignored the resolution finds nothing. -/
theorem smallTree_dot : Descends smallTree 0 (components "/R") 1 ∧ smallTree.read_contained 1 "/R" "/R/a/." 8 = .ok ("a", [1]) ∧
    ¬∃ last ino, Reaches smallTree (.start 1 "/R/a/." []) last ∧ Denotes smallTree (· == "") last ino := by
  refine ⟨smallTree_root, by decide +kernel, ?_⟩
  rintro ⟨last, ino, hreaches, hlast⟩
  have hordinary : ∀ name, name = "R" ∨ name = "a" → Ordinary name := by
    rintro name (rfl | rfl) <;> exact ⟨by decide, by decide, by decide, by decide⟩
  have hstart : Lookup.start 1 "/R/a/." [] = ⟨0, ["", "R", "a", "."]⟩ := by decide
  rw [hstart] at hreaches
  have hstuck : Reaches smallTree ⟨0, ["", "R", "a", "."]⟩ ⟨1, ["a", "."]⟩ :=
    .head ⟨_, .skip rfl⟩ (.single ⟨_, .enter (hordinary _ (.inl rfl)) rfl⟩)
  have hfile : Denotes smallTree skipped ⟨1, ["a", "."]⟩ 2 := ⟨"a", ["."], rfl, rfl, hordinary _ (.inr rfl), rfl⟩
  obtain rfl := hfile.last_eq hstuck hreaches hlast
  obtain ⟨name, rest, hrest, hignored, -⟩ := hlast
  cases hrest
  cases hignored

end zc.fsutil

import Orchestrator.Files.Layout
import Orchestrator.Python.Number

/-!
The file reads of a QA run: what is refused by its spelling, and what the target reads.
-/

namespace Orchestrator.Qa

open Files Python

inductive QATargetError where
  | notAPath (path : List Char)
  | secretPath (path : List Char)
  | outside (path : List Char) (physicalRoot : List Char)
  | missing (path : List Char)
  deriving DecidableEq

def caseless (c : Char) : Char := if c = 'ſ' then 's' else if c = 'ı' ∨ c = 'İ' then 'i' else c.toLower

def secretWords : List (List Char) := ["credentials".toList, "secrets".toList]

def keySuffixes : List (List Char) := [".pem".toList, ".key".toList, ".p12".toList, ".pfx".toList]

/-- The pattern `(^|/)\.env(\.|$)`. -/
def matchesEnv (path : List Char) : Bool :=
  ((components path).any fun name => ".env.".toList.isPrefixOf name) || (components path).getLast? == some ".env".toList

/-- The pattern `\.(pem|key|p12|pfx)$`. -/
def matchesKey (path : List Char) : Bool := keySuffixes.any fun suffix => suffix.isSuffixOf path

/-- The pattern `(^|/)(credentials|secrets)[^/]*$`, whatever the case. -/
def matchesWord (path : List Char) : Bool :=
  (components path).getLast?.any fun name => secretWords.any fun word => word.isPrefixOf (name.map caseless)

/-- The pattern `(^|/)\.ssh(/|$)`. -/
def matchesSsh (path : List Char) : Bool := (components path).contains ".ssh".toList

def rejectSecretPath (path : List Char) : Bool := matchesEnv path || matchesKey path || matchesWord path || matchesSsh path

inductive ContainedRead where
  | failed (status : Nat) (stderr : List Char)
  | content (file : List Name) (stdout : List UInt8)
  deriving DecidableEq

def withoutNewlines (text : List Char) : List Char := (text.reverse.dropWhile (· == '\n')).reverse

def candidate (physicalRoot requested : List Char) : List Char :=
  if isAbsolute requested then requested else physicalRoot ++ '/' :: requested

/-- The pattern `"$root"|"$root"/*` of the script. -/
def Below (physicalRoot resolved : List Char) : Prop := resolved = physicalRoot ∨ physicalRoot ++ ['/'] <+: resolved

instance (physicalRoot resolved : List Char) : Decidable (Below physicalRoot resolved) := inferInstanceAs (Decidable (_ ∨ _))

def containedRead (layout : Layout) (physicalRoot requested : List Char) (limit : Nat) : ContainedRead :=
  match layout.realpath (candidate physicalRoot requested) with
  | none => .failed 3 "unresolvable".toList
  | some names =>
    let resolved := withoutNewlines (pathText names)
    if Below physicalRoot resolved then match layout.fileAt resolved with
      | some (file, content) => .content file (content.take limit)
      | none => .failed 5 ("notafile:".toList ++ resolved)
    else .failed 4 ("outside:".toList ++ resolved)

def readFile (layout : Layout) (physicalRoot path : List Char) (maxBytes : Nat) : Except QATargetError ContainedRead :=
  if path.any isSpace then .error (.notAPath path)
  else if rejectSecretPath path then .error (.secretPath path)
  else match containedRead layout physicalRoot path maxBytes with
    | .failed 4 _ => .error (.outside path physicalRoot)
    | .failed 3 _ => .error (.missing path)
    | result => .ok result

section Secrets

def lower (name : Name) : Name := name.map Char.toLower

/-- The exclusion rules about a file of the project: `.env` files, key and certificate files, what lies in a directory
for secrets or bears such a name, in any letter case. -/
def isSecretFile (names : List Name) : Bool :=
  (names.getLast?.any fun name => lower name == ".env".toList || ".env.".toList.isPrefixOf (lower name) ||
    keySuffixes.any fun suffix => suffix.isSuffixOf (lower name)) ||
  names.any fun name => lower name == ".ssh".toList || secretWords.any fun word => word.isPrefixOf (lower name)

end Secrets

structure PhysicalRoot where
  names : List Name
  entries : ∀ name ∈ names, IsEntry name

def PhysicalRoot.text (root : PhysicalRoot) : List Char := pathText root.names

variable (layout : Layout) (root : PhysicalRoot) (path : List Char)

def Permitted (file : List Name) : Prop := root.names <+: file ∧ isSecretFile (file.drop root.names.length) = false

def ReadsSafely : Prop :=
  ∀ maxBytes file stdout, readFile layout root.text path maxBytes = .ok (.content file stdout) → Permitted root file

def Refused : Prop := path.any isSpace = true ∨ rejectSecretPath path = true

def LeadsSafely (text : List Char) : Prop :=
  ∀ file content, Below root.text text → layout.fileAt text = some (file, content) → Permitted root file

variable {stdout : List UInt8}

variable {file : List Name}

variable {maxBytes : Nat}

theorem readFile_content_iff {path : List Char} (h : ¬ Refused path) :
    readFile layout root.text path maxBytes = .ok (.content file stdout) ↔
      containedRead layout root.text path maxBytes = .content file stdout := by
  obtain ⟨hspace, hsecret⟩ := not_or.mp h
  rw [readFile, if_neg hspace, if_neg hsecret]
  split
  · rename_i hread
    simp [hread]
  · rename_i hread
    simp [hread]
  · simp

theorem containedRead_content_iff :
    containedRead layout root.text path maxBytes = .content file stdout ↔
      ∃ names content, layout.realpath (candidate root.text path) = some names ∧ Below root.text (withoutNewlines (pathText names)) ∧
        layout.fileAt (withoutNewlines (pathText names)) = some (file, content) ∧ content.take maxBytes = stdout := by
  unfold containedRead
  constructor
  · intro h
    split at h
    · cases h
    · rename_i names hnames
      simp only at h
      split at h
      · rename_i hbelow
        split at h
        · rename_i file content hfile
          cases h
          exact ⟨names, content, hnames, hbelow, hfile, rfl⟩
        · cases h
      · cases h
  · rintro ⟨names, content, hnames, hbelow, hfile, rfl⟩
    simp only [hnames, if_pos hbelow, hfile]

theorem readsSafely_iff_leads :
    ReadsSafely layout root path ↔ Refused path ∨
      ∀ names, layout.realpath (candidate root.text path) = some names → LeadsSafely layout root (withoutNewlines (pathText names)) := by
  by_cases hrefused : Refused path
  · refine iff_of_true ?_ (.inl hrefused)
    intro maxBytes file stdout h
    rw [readFile] at h
    rcases hrefused with hspace | hsecret
    · rw [if_pos hspace] at h
      cases h
    · rw [if_pos hsecret] at h
      split at h <;> cases h
  · simp only [ReadsSafely, readFile_content_iff layout root hrefused, containedRead_content_iff, hrefused, false_or, LeadsSafely]
    constructor
    · intro h names hnames file content hbelow hfile
      exact h content.length file content ⟨names, content, hnames, hbelow, hfile, List.take_length⟩
    · rintro h maxBytes file stdout ⟨names, content, hnames, hbelow, hfile, -⟩
      exact h names hnames file content hbelow hfile

theorem withoutNewlines_of_last {text : List Char} (h : text.getLast? ≠ some '\n') : withoutNewlines text = text := by
  unfold withoutNewlines
  cases hreverse : text.reverse with
  | nil => simpa using (List.reverse_eq_nil_iff.mp hreverse).symm
  | cons c rest =>
    have hlast : text.getLast? = some c := by rw [← List.head?_reverse, hreverse]; rfl
    have hc : (c == '\n') = false := beq_false_of_ne fun heq => h (heq ▸ hlast)
    rw [List.dropWhile_cons_of_neg (by simp [hc]), ← hreverse, List.reverse_reverse]

variable {layout root path}

theorem leadsSafely_physical {names : List Name} (hnames : layout.realpath (candidate root.text path) = some names)
    (hlast : (pathText names).getLast? ≠ some '\n') :
    LeadsSafely layout root (withoutNewlines (pathText names)) ↔
      ∀ content, Below root.text (pathText names) → layout.node names = some (.file content) →
        isSecretFile (names.drop root.names.length) = false := by
  obtain ⟨hphysical, hentries⟩ := Layout.realpath_physical hnames
  have hself := hphysical.realpath_self hentries
  have hfile : ∀ file content, layout.fileAt (pathText names) = some (file, content) ↔
      file = names ∧ layout.node names = some (.file content) := by
    intro file content
    rw [Layout.fileAt, hself, Option.bind_some]
    split
    · rename_i content' hnode
      rw [hnode]
      simp [eq_comm]
    · rename_i hnode
      simp only [reduceCtorEq, false_iff, not_and]
      exact fun _ => hnode content
  rw [withoutNewlines_of_last hlast]
  constructor
  · intro h content hbelow hnode
    exact (h names content hbelow ((hfile _ _).mpr ⟨rfl, hnode⟩)).2
  · intro h file content hbelow hread
    obtain ⟨rfl, hnode⟩ := (hfile _ _).mp hread
    exact ⟨prefix_of_text root.entries hentries hbelow, h content hbelow hnode⟩

/-- What has to hold of where a path leads: no secret file of the project is there, and no name that ends in a newline
stands for another file. -/
def TargetSafe (layout : Layout) (root : PhysicalRoot) (names : List Name) : Prop :=
  if (pathText names).getLast? = some '\n' then LeadsSafely layout root (withoutNewlines (pathText names))
  else ∀ content, Below root.text (pathText names) → layout.node names = some (.file content) →
    isSecretFile (names.drop root.names.length) = false

def treeOf (entries : List (String × Node)) : Layout where
  node names := (entries.find? fun entry => components entry.1.toList == [] :: names).map (·.2)
  links := 40

def deployment : PhysicalRoot where
  names := ["srv".toList, "app".toList]
  entries := by simp [IsEntry]

def sampleTree : Layout := treeOf [("/srv", .dir), ("/srv/app", .dir), ("/srv/app/config", .link ".env".toList),
  ("/srv/app/.env", .file [1]), ("/srv/app/server.PEM", .file [2]), ("/srv/app/secrets", .dir), ("/srv/app/secrets/db.txt", .file [3]),
  ("/srv/app/evidence", .link "note\n".toList), ("/srv/app/note\n", .file [4]), ("/srv/app/note", .link "/etc/passwd".toList),
  ("/etc", .dir), ("/etc/passwd", .file [5])]

theorem not_readsSafely {layout : Layout} {root : PhysicalRoot} {path : List Char}
    (hread : readFile layout root.text path maxBytes = .ok (.content file stdout))
    (hfile : (root.names.isPrefixOf file && !isSecretFile (file.drop root.names.length)) = false) : ¬ ReadsSafely layout root path := by
  intro h
  obtain ⟨hinside, hsecret⟩ := h maxBytes file stdout hread
  rw [List.isPrefixOf_iff_prefix.mpr hinside, hsecret] at hfile
  cases hfile

end Orchestrator.Qa

import Mathlib.Data.List.Infix

/-!
Directory trees with symbolic links, and what a path leads to in one.
-/

namespace Orchestrator.Files

abbrev Name := List Char

inductive Node where
  | dir
  | file (content : List UInt8)
  | link (target : List Char)

structure Layout where
  node : List Name → Option Node
  links : Nat

def components (text : List Char) : List Name := text.splitOn '/'

def isAbsolute (text : List Char) : Bool := text.head? == some '/'

def pathText (names : List Name) : List Char := '/' :: ['/'].intercalate names

def IsEntry (name : Name) : Prop := name ≠ [] ∧ name ≠ ['.'] ∧ name ≠ ['.', '.'] ∧ '/' ∉ name

namespace Layout

variable (layout : Layout)

/-- A walk from the directory `here`; `follow` goes on where it comes to a link. The last name need not exist,
whatever slashes follow it. -/
def walk (follow : List Name → List Name → Option (List Name)) : List Name → List Name → Option (List Name)
  | here, [] => some here
  | here, name :: rest =>
    if name = [] ∨ name = ['.'] then walk follow here rest
    else if name = ['.', '.'] then walk follow here.dropLast rest
    else match layout.node (here ++ [name]) with
      | none => if rest.all List.isEmpty then some (here ++ [name]) else none
      | some .dir => walk follow (here ++ [name]) rest
      | some (.file _) => if rest = [] then some (here ++ [name]) else none
      | some (.link target) => follow (if isAbsolute target then [] else here) (components target ++ rest)

def resolve : Nat → List Name → List Name → Option (List Name)
  | 0 => layout.walk fun _ _ => none
  | links + 1 => layout.walk (resolve links)

/-- The physical path of an absolute one: `readlink -f`, and what opening the path comes to. -/
def realpath (text : List Char) : Option (List Name) := layout.resolve layout.links [] (components text)

def fileAt (text : List Char) : Option (List Name × List UInt8) :=
  (layout.realpath text).bind fun names => match layout.node names with
    | some (.file content) => some (names, content)
    | _ => none

def Dirs (names : List Name) : Prop := ∀ q, q <+: names → q ≠ [] → layout.node q = some .dir

inductive Physical : List Name → Prop
  | dir {names : List Name} (h : layout.Dirs names) : Physical names
  | entry {here : List Name} {name : Name} (hdirs : layout.Dirs here) (hlink : ∀ target, layout.node (here ++ [name]) ≠ some (.link target)) :
    Physical (here ++ [name])

end Layout

theorem no_slash_of_mem_components {text : List Char} : ∀ name ∈ components text, '/' ∉ name := by
  induction text with
  | nil => simp [components]
  | cons c rest ih =>
    intro name hname
    unfold components at hname ih
    rw [List.splitOn_cons_eq_if_modifyHead] at hname
    split at hname
    · rcases List.mem_cons.mp hname with rfl | hmem
      · simp
      · exact ih name hmem
    · rename_i hc
      cases hsplit : rest.splitOn '/' with
      | nil => exact absurd hsplit (List.splitOn_ne_nil _ _)
      | cons first others =>
        rw [hsplit] at hname ih
        rcases List.mem_cons.mp hname with rfl | hmem
        · rw [List.mem_cons, not_or]
          refine ⟨?_, ih first List.mem_cons_self⟩
          rintro rfl
          exact hc (by decide)
        · exact ih name (List.mem_cons_of_mem _ hmem)

variable {names : List Name}

theorem components_pathText (h : ∀ name ∈ names, IsEntry name) (hne : names ≠ []) :
    components (pathText names) = [] :: names := by
  have hsplit := List.splitOn_append_cons_self (a := '/') [] (['/'].intercalate names)
  rw [components, pathText, ← List.nil_append ('/' :: _), hsplit, List.splitOn_intercalate '/' (fun name hname => (h name hname).2.2.2) hne]
  rfl

variable {layout : Layout}

theorem dirs_nil : layout.Dirs [] := fun _ hpre hne => absurd (List.prefix_nil.mp hpre) hne

theorem Layout.Dirs.ofPrefix {names q : List Name} (h : layout.Dirs names) (hpre : q <+: names) : layout.Dirs q :=
  fun r hr => h r (hr.trans hpre)

theorem Layout.Dirs.snoc {here : List Name} {name : Name} (h : layout.Dirs here) (hdir : layout.node (here ++ [name]) = some .dir) :
    layout.Dirs (here ++ [name]) := by
  intro q hpre hne
  rcases List.prefix_concat_iff.mp hpre with rfl | hbefore
  · exact hdir
  · exact h q hbefore hne

variable {follow : List Name → List Name → Option (List Name)}

theorem Layout.walk_physical
    (hfollow : ∀ here rest result, layout.Dirs here → (∀ name ∈ here, IsEntry name) → (∀ name ∈ rest, '/' ∉ name) →
      follow here rest = some result → layout.Physical result ∧ ∀ name ∈ result, IsEntry name)
    {here rest result : List Name} (hdirs : layout.Dirs here) (hhere : ∀ name ∈ here, IsEntry name)
    (hrest : ∀ name ∈ rest, '/' ∉ name) (h : layout.walk follow here rest = some result) :
    layout.Physical result ∧ ∀ name ∈ result, IsEntry name := by
  induction rest generalizing here with
  | nil =>
    cases h
    exact ⟨.dir hdirs, hhere⟩
  | cons name rest ih =>
    have htail : ∀ name ∈ rest, '/' ∉ name := fun n hn => hrest n (List.mem_cons_of_mem _ hn)
    rw [walk] at h
    split at h
    · exact ih hdirs hhere htail h
    · rename_i hstay
      split at h
      · have hup : here.dropLast <+: here := List.dropLast_prefix here
        exact ih (hdirs.ofPrefix hup) (fun n hn => hhere n (hup.subset hn)) htail h
      · rename_i hparent
        have hentries : ∀ n ∈ here ++ [name], IsEntry n := by
          intro n hn
          rcases List.mem_append.mp hn with hn | hn
          · exact hhere n hn
          · rw [List.mem_singleton.mp hn]
            exact ⟨fun heq => hstay (.inl heq), fun heq => hstay (.inr heq), hparent, hrest name List.mem_cons_self⟩
        split at h
        · rename_i hnode
          split at h
          · cases h
            exact ⟨.entry hdirs (by rw [hnode]; simp), hentries⟩
          · cases h
        · rename_i hnode
          exact ih (hdirs.snoc hnode) hentries htail h
        · rename_i content hnode
          split at h
          · cases h
            exact ⟨.entry hdirs (by rw [hnode]; simp), hentries⟩
          · cases h
        · rename_i target hnode
          have hslash : ∀ n ∈ components target ++ rest, '/' ∉ n := by
            intro n hn
            rcases List.mem_append.mp hn with hn | hn
            · exact no_slash_of_mem_components n hn
            · exact htail n hn
          split at h
          · exact hfollow _ _ _ dirs_nil (by simp) hslash h
          · exact hfollow _ _ _ hdirs hhere hslash h

theorem Layout.resolve_physical {links : Nat} {here rest result : List Name} (hdirs : layout.Dirs here)
    (hhere : ∀ name ∈ here, IsEntry name) (hrest : ∀ name ∈ rest, '/' ∉ name) (h : layout.resolve links here rest = some result) :
    layout.Physical result ∧ ∀ name ∈ result, IsEntry name := by
  induction links generalizing here rest result with
  | zero => exact walk_physical (fun _ _ _ _ _ _ h => by cases h) hdirs hhere hrest h
  | succ links ih => exact walk_physical (fun _ _ _ hdirs hhere hrest h => ih hdirs hhere hrest h) hdirs hhere hrest h

theorem Layout.realpath_physical {text : List Char} (h : layout.realpath text = some names) :
    layout.Physical names ∧ ∀ name ∈ names, IsEntry name :=
  resolve_physical dirs_nil (by simp) no_slash_of_mem_components h

theorem Layout.walk_through {here names : List Name} (rest : List Name)
    (hnames : ∀ name ∈ names, IsEntry name) (hdirs : layout.Dirs (here ++ names)) :
    layout.walk follow here (names ++ rest) = layout.walk follow (here ++ names) rest := by
  induction names generalizing here with
  | nil => simp
  | cons name names ih =>
    obtain ⟨hne, hdot, hparent, -⟩ := hnames name List.mem_cons_self
    have hnode : layout.node (here ++ [name]) = some .dir := hdirs _ (by simp) (by simp)
    have hsplit : here ++ name :: names = here ++ [name] ++ names := by simp
    rw [hsplit] at hdirs
    rw [List.cons_append, walk, if_neg (not_or.mpr ⟨hne, hdot⟩), if_neg hparent, hnode, hsplit]
    exact ih (fun n hn => hnames n (List.mem_cons_of_mem _ hn)) hdirs

theorem Layout.Physical.walk_self
    (h : layout.Physical names) (hnames : ∀ name ∈ names, IsEntry name) : layout.walk follow [] names = some names := by
  cases h with
  | dir hdirs =>
    have hwalk : layout.walk follow [] (names ++ []) = layout.walk follow ([] ++ names) [] := walk_through [] hnames hdirs
    rw [List.append_nil] at hwalk
    rw [hwalk]
    rfl
  | @entry here name hdirs hlink =>
    obtain ⟨hne, hdot, hparent, -⟩ := hnames name (by simp)
    have hwalk : layout.walk follow [] (here ++ [name]) = layout.walk follow ([] ++ here) [name] :=
      walk_through [name] (fun n hn => hnames n (List.mem_append_left _ hn)) hdirs
    rw [hwalk, List.nil_append, walk, if_neg (not_or.mpr ⟨hne, hdot⟩), if_neg hparent]
    split
    · rfl
    · rfl
    · rw [if_pos rfl]
    · rename_i target hnode
      exact absurd hnode (hlink target)

theorem Layout.Physical.realpath_self (h : layout.Physical names) (hnames : ∀ name ∈ names, IsEntry name) :
    layout.realpath (pathText names) = some names := by
  have hwalk : ∀ links, layout.resolve links [] names = some names := by
    intro links
    cases links with
    | zero | succ links => exact h.walk_self hnames
  by_cases hne : names = []
  · subst hne
    unfold realpath
    cases layout.links <;> rfl
  · rw [realpath, components_pathText hnames hne]
    have hskip : layout.resolve layout.links [] ([] :: names) = layout.resolve layout.links [] names := by
      cases layout.links <;> rfl
    rw [hskip, hwalk]

theorem prefix_of_text {root names : List Name} (hroot : ∀ name ∈ root, IsEntry name) (hnames : ∀ name ∈ names, IsEntry name)
    (h : pathText names = pathText root ∨ pathText root ++ ['/'] <+: pathText names) : root <+: names := by
  by_cases hempty : root = []
  · rw [hempty]
    exact List.nil_prefix
  · have hsplit : ∃ others, components (pathText names) = ([] :: root) ++ others := by
      rcases h with heq | ⟨others, hothers⟩
      · exact ⟨[], by rw [heq, components_pathText hroot hempty, List.append_nil]⟩
      · refine ⟨components others, ?_⟩
        rw [← hothers, List.append_assoc, components, List.singleton_append, List.splitOn_append_cons_self, ← components_pathText hroot hempty]
        rfl
    obtain ⟨others, hothers⟩ := hsplit
    by_cases hne : names = []
    · subst hne
      have hslash : components (pathText []) = [[], []] := rfl
      rw [hslash] at hothers
      cases root with
      | nil => exact absurd rfl hempty
      | cons first root =>
        have hfirst := (List.cons.inj (List.cons.inj hothers).2).1
        exact absurd hfirst.symm (hroot first List.mem_cons_self).1
    · rw [components_pathText hnames hne] at hothers
      exact ⟨others, (List.cons.inj hothers).2.symm⟩

end Orchestrator.Files

import Mathlib.Data.List.Chain
import Orchestrator.Python.Number

/-!
The chunks that a document is embedded in: whole paragraphs as long as they fit, slices of one that
is too long, and before each chunk the end of the one before it.
-/

namespace Orchestrator.Rag

abbrev Text := List Char

/-- A tokenizer. Nothing is supposed of it. -/
structure Encoding where
  encode : Text → List Nat
  decode : List Nat → Text

def chunkTokenTarget : Nat := 512

def chunkOverlapTokens : Nat := 50

def blankLine : Text := ['\n', '\n']

/-- `text.split("\n\n")`, with what stands before `text` since the last blank line -/
def splitBlank (part : Text) : Text → List Text
  | [] => [part]
  | '\n' :: '\n' :: rest => part :: splitBlank [] rest
  | c :: rest => splitBlank (part ++ [c]) rest

def paragraphs (text : Text) : List Text :=
  ((splitBlank [] text).map Python.strip).filter fun part => !part.isEmpty

/-- `tokens[start : start + size] for start in range(0, len(tokens), size)` -/
def slices (size : Nat) (tokens : List Nat) : List (List Nat) :=
  (List.range' 0 ((tokens.length + (size - 1)) / size) size).map fun start => (tokens.drop start).take size

variable (e : Encoding)

def Encoding.count (text : Text) : Nat := (e.encode text).length

def splitLongParagraph (paragraph : Text) : List Text :=
  (slices chunkTokenTarget (e.encode paragraph)).map e.decode

structure Gathered where
  baseChunks : List Text
  currentParts : List Text
  currentTokens : Nat

def Gathered.flush (g : Gathered) : Gathered :=
  if g.currentParts.isEmpty then g else ⟨g.baseChunks ++ [blankLine.intercalate g.currentParts], [], 0⟩

def Gathered.add (g : Gathered) (paragraph : Text) : Gathered :=
  if e.count paragraph > chunkTokenTarget then
    let g := g.flush
    { g with baseChunks := g.baseChunks ++ splitLongParagraph e paragraph }
  else if g.currentTokens + e.count paragraph ≤ chunkTokenTarget then
    { g with currentParts := g.currentParts ++ [paragraph], currentTokens := g.currentTokens + e.count paragraph }
  else ⟨g.baseChunks ++ [blankLine.intercalate g.currentParts], [paragraph], e.count paragraph⟩

def baseChunks (paragraphs : List Text) : List Text :=
  (paragraphs.foldl (Gathered.add e) ⟨[], [], 0⟩).flush.baseChunks

/-- The end of the chunk before and a blank line; nothing where that chunk has no tokens. -/
def overlap (prevTokens : List Nat) : Text :=
  if prevTokens.isEmpty then [] else e.decode (prevTokens.drop (prevTokens.length - chunkOverlapTokens)) ++ blankLine

def overlapped (prevTokens : List Nat) : List Text → List Text
  | [] => []
  | baseChunk :: rest => (overlap e prevTokens ++ baseChunk) :: overlapped (e.encode baseChunk) rest

def chunkDocument (text : Text) : List Text :=
  if (paragraphs text).isEmpty then [] else overlapped e [] (baseChunks e (paragraphs text))

/-- What base chunks are made of: paragraphs that share one, or one paragraph that fills some. -/
inductive Group where
  | run (parts : List Text)
  | long (paragraph : Text)

namespace Group

def paragraphs : Group → List Text
  | run parts => parts
  | long paragraph => [paragraph]

def render : Group → List Text
  | run parts => [blankLine.intercalate parts]
  | long paragraph => splitLongParagraph e paragraph

def Fits : Group → Prop
  | run parts => parts ≠ [] ∧ (parts.map e.count).sum ≤ chunkTokenTarget
  | long paragraph => chunkTokenTarget < e.count paragraph ∧
      (slices chunkTokenTarget (e.encode paragraph)).flatten = e.encode paragraph ∧
      ∀ slice ∈ slices chunkTokenTarget (e.encode paragraph), slice ≠ [] ∧ slice.length ≤ chunkTokenTarget

/-- A run has no room for the paragraph that begins the next. -/
def Full : Group → Group → Prop
  | run parts, run (next :: _) => chunkTokenTarget < (parts.map e.count).sum + e.count next
  | _, _ => True

end Group

theorem splitBlank_ne_nil (part text : Text) : splitBlank part text ≠ [] := by
  fun_induction splitBlank part text with
  | case1 part | case2 part rest ih => simp
  | case3 part c rest _ ih => exact ih

theorem intercalate_splitBlank (part text : Text) : blankLine.intercalate (splitBlank part text) = part ++ text := by
  fun_induction splitBlank part text with
  | case1 part => simp
  | case2 part rest ih =>
    rw [List.intercalate_cons_of_ne_nil (splitBlank_ne_nil [] rest), ih]
    simp [blankLine]
  | case3 part c rest _ ih => simp [ih]

theorem flatten_slices {size : Nat} (hsize : 0 < size) (tokens : List Nat) : (slices size tokens).flatten = tokens := by
  have htake : ∀ n start, ((List.range' start n size).map fun start => (tokens.drop start).take size).flatten =
      (tokens.drop start).take (n * size) := by
    intro n
    induction n with
    | zero => simp
    | succ n ih =>
      intro start
      have hsplit : (n + 1) * size = size + n * size := by rw [Nat.succ_mul, Nat.add_comm]
      rw [List.range'_succ, List.map_cons, List.flatten_cons, ih, hsplit, List.take_add, List.drop_drop]
  have hcover : tokens.length ≤ (tokens.length + (size - 1)) / size * size := by
    have hdiv := Nat.div_add_mod (tokens.length + (size - 1)) size
    have hmod := Nat.mod_lt (tokens.length + (size - 1)) hsize
    rw [Nat.mul_comm] at hdiv
    omega
  rw [slices, htake, List.drop_zero, List.take_of_length_le hcover]

theorem length_slice {size : Nat} (hsize : 0 < size) {tokens slice : List Nat} (h : slice ∈ slices size tokens) :
    slice ≠ [] ∧ slice.length ≤ size := by
  simp only [slices, List.mem_map, List.mem_range', Nat.zero_add] at h
  rcases h with ⟨_, ⟨i, hi, rfl⟩, rfl⟩
  have hround : size * (i + 1) ≤ tokens.length + (size - 1) :=
    (Nat.mul_le_mul_left size hi).trans (Nat.mul_div_le _ size)
  rw [Nat.mul_succ] at hround
  constructor
  · apply List.ne_nil_of_length_pos
    simp only [List.length_take, List.length_drop]
    omega
  · simp

variable {e} {g : Gathered} {groups : List Group} {before chunks : List Text}

theorem Group.full_append {group : Group} {parts : List Text} {paragraph : Text}
    (h : group.Full e (.run (parts ++ [paragraph]))) (more : List Text) :
    group.Full e (.run (parts ++ [paragraph] ++ more)) := by
  cases group <;> cases parts <;> exact h

variable (e) in
structure Closed (before chunks : List Text) (groups : List Group) : Prop where
  chunks : chunks = groups.flatMap (Group.render e)
  covers : groups.flatMap Group.paragraphs = before
  fits : ∀ group ∈ groups, group.Fits e
  full : List.IsChain (Group.Full e) groups

variable (e) in
/-- What the loop keeps: `before` is in closed groups, and the parts wait for more. -/
structure Laid (before : List Text) (g : Gathered) (groups : List Group) : Prop where
  closed : Closed e before g.baseChunks groups
  tokens : g.currentTokens = (g.currentParts.map e.count).sum
  room : g.currentTokens ≤ chunkTokenTarget
  opened : ∀ last ∈ groups.getLast?, ∀ paragraph, last.Full e (.run (g.currentParts ++ [paragraph]))

theorem Closed.snoc (h : Closed e before chunks groups) {group : Group} (hfits : group.Fits e)
    (hfull : ∀ last ∈ groups.getLast?, last.Full e group) :
    Closed e (before ++ group.paragraphs) (chunks ++ group.render e) (groups ++ [group]) := by
  constructor
  · simp [h.chunks]
  · simp [h.covers]
  · intro new hnew
    rcases List.mem_append.mp hnew with hold | hlast
    · exact h.fits new hold
    · rwa [List.mem_singleton.mp hlast]
  · apply h.full.append (List.isChain_singleton group)
    rintro last hlast _ ⟨⟩
    exact hfull last hlast

theorem Laid.run (h : Laid e before g groups) (hparts : g.currentParts ≠ []) :
    Closed e (before ++ g.currentParts) (g.baseChunks ++ [blankLine.intercalate g.currentParts])
      (groups ++ [.run g.currentParts]) := by
  have hfits : Group.Fits e (.run g.currentParts) := ⟨hparts, h.tokens ▸ h.room⟩
  apply h.closed.snoc hfits
  intro last hlast
  have hopen := h.opened last hlast []
  cases hcase : g.currentParts with
  | nil => exact absurd hcase hparts
  | cons first rest =>
    rw [hcase] at hopen
    cases last <;> exact hopen

theorem Laid.flush (h : Laid e before g groups) :
    ∃ groups, Closed e (before ++ g.currentParts) g.flush.baseChunks groups ∧
      g.flush.currentParts = [] ∧ g.flush.currentTokens = 0 := by
  simp only [Gathered.flush, List.isEmpty_iff]
  split
  · next hempty => exact ⟨groups, by simpa [hempty] using h.closed, hempty, by simp [h.tokens, hempty]⟩
  · next hparts => exact ⟨_, h.run hparts, rfl, rfl⟩

/-- What one paragraph does: its slices close a group, it joins the parts, or it begins new ones. -/
theorem Laid.add (h : Laid e before g groups) (paragraph : Text) :
    ∃ after groups, Laid e after (g.add e paragraph) groups ∧
      after ++ (g.add e paragraph).currentParts = before ++ g.currentParts ++ [paragraph] := by
  simp only [Gathered.add]
  split
  · next hlong =>
    obtain ⟨closed, hclosed, hparts, htokens⟩ := h.flush
    have hfits : Group.Fits e (.long paragraph) :=
      ⟨hlong, flatten_slices (by decide) _, fun _ => length_slice (by decide)⟩
    refine ⟨_, _, ⟨hclosed.snoc hfits fun last _ => by cases last <;> trivial, ?_, ?_, ?_⟩, ?_⟩
    · simp [hparts, htokens]
    · simp [htokens]
    · simp [Group.Full]
    · simp [hparts, Group.paragraphs]
  · split
    · next hroom =>
      refine ⟨before, groups, ⟨h.closed, ?_, hroom, ?_⟩, ?_⟩
      · simp [h.tokens]
      · exact fun last hlast next => Group.full_append (h.opened last hlast paragraph) [next]
      · simp
    · next hshort hover =>
      have hparts : g.currentParts ≠ [] := by
        intro hnil
        simp only [h.tokens, hnil, List.map_nil, List.sum_nil] at hover
        omega
      refine ⟨_, _, ⟨h.run hparts, ?_, ?_, ?_⟩, rfl⟩
      · simp
      · simpa using hshort
      · simpa [Group.Full, h.tokens] using hover

theorem Laid.foldl (paragraphs : List Text) (h : Laid e before g groups) :
    ∃ after groups, Laid e after (paragraphs.foldl (Gathered.add e) g) groups ∧
      after ++ (paragraphs.foldl (Gathered.add e) g).currentParts = before ++ g.currentParts ++ paragraphs := by
  induction paragraphs generalizing before g groups with
  | nil => exact ⟨before, groups, h, by simp⟩
  | cons paragraph rest ih =>
    obtain ⟨mid, closed, hmid, hcover⟩ := h.add paragraph
    obtain ⟨after, last, hlast, hall⟩ := ih hmid
    exact ⟨after, last, hlast, by simpa [hcover] using hall⟩

theorem closed_baseChunks (e : Encoding) (paragraphs : List Text) :
    ∃ groups, Closed e paragraphs (baseChunks e paragraphs) groups := by
  have hstart : Laid e [] ⟨[], [], 0⟩ [] := ⟨⟨rfl, rfl, by simp, .nil⟩, rfl, Nat.zero_le _, by simp⟩
  obtain ⟨after, groups, hlaid, hcover⟩ := hstart.foldl paragraphs
  obtain ⟨closed, hclosed, -, -⟩ := hlaid.flush
  rw [hcover] at hclosed
  exact ⟨closed, hclosed⟩

theorem overlapped_eq (e : Encoding) (chunks : List Text) (prevTokens : List Nat) :
    overlapped e prevTokens chunks =
      (overlap e prevTokens :: chunks.map fun chunk => overlap e (e.encode chunk)).zipWith (· ++ ·) chunks := by
  induction chunks generalizing prevTokens with
  | nil => simp [overlapped]
  | cons chunk rest ih => simp [overlapped, ih]

/-- Every paragraph is in the chunks once and in its place, no base chunk is over the target by the
token counts of its paragraphs, and none was closed while the next paragraph had room in it. -/
theorem chunks_hold_document (e : Encoding) (text : Text) :
    blankLine.intercalate (splitBlank [] text) = text ∧
    ∃ groups : List Group, groups.flatMap Group.paragraphs = paragraphs text ∧
      (∀ group ∈ groups, group.Fits e) ∧ List.IsChain (Group.Full e) groups ∧
      chunkDocument e text =
        ([] :: (groups.flatMap (Group.render e)).map fun chunk => overlap e (e.encode chunk)).zipWith (· ++ ·)
          (groups.flatMap (Group.render e)) := by
  constructor
  · exact intercalate_splitBlank [] text
  · obtain ⟨groups, hclosed⟩ := closed_baseChunks e (paragraphs text)
    refine ⟨groups, hclosed.covers, hclosed.fits, hclosed.full, ?_⟩
    rw [← hclosed.chunks, chunkDocument]
    split
    · next hempty => simp [List.isEmpty_iff.mp hempty, baseChunks, Gathered.flush]
    · rw [overlapped_eq]
      rfl

end Orchestrator.Rag

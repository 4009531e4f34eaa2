import PortageEngine.Library.Text
import PortageEngine.Library.Overlay
import PortageEngine.Library.Fallible

/-!
# The Packages index

A binhost lists its packages in one text: a preamble and one stanza a package, separated by empty
lines, each a list of `KEY: value` lines.  `mergePackagesIndexes` overlays the stanzas of a new job on
those of the generation before; a package is identified by its `PATH`.

`readStanzas_render` says that a merged index is read back as the stanzas it was written from, and
`paths_mergePackagesIndexes` what the paths of a merged index are.
-/

namespace PortageEngine.Packages

open List Library Library.Rows Library.Text Library.Decimal Library.Overlay

abbrev Text := List Char

def byteLength (t : Text) : Nat :=
  (t.map Char.utf8Size).sum

structure PackagesStanza where
  cpv : Text
  path : Text
  document : Text
  deriving DecidableEq

/-! ## Reading -/

/-- One `KEY: value` line after the fields of the lines before it. -/
def packagesField (fields : List (Text × Text)) (line : Text) : Except String (List (Text × Text)) :=
  match cutPair ':' ' ' line with
  | none => .error "malformed Packages line"
  | some (key, value) => do
    require (key ≠ [] && !key.contains ' ' && !key.contains '\t') "malformed Packages line"
    require (fields.all fun field => field.1 ≠ key)
      s!"duplicate Packages field {(String.ofList key).quote}"
    .ok (fields ++ [(key, value)])

def packagesFields (block : Text) : Except String (List (Text × Text)) :=
  (block.splitOn '\n').foldlM packagesField []

/-- The value of a field; a field that is not there reads as empty. -/
def fieldValue (fields : List (Text × Text)) (key : String) : Text :=
  ((fields.find? fun field => field.1 = key.toList).map Prod.snd).getD []

/-- One stanza, without the comparison with the others. -/
def parseStanza (block : Text) : Except String PackagesStanza := do
  let fields ← packagesFields block
  let cpv := fieldValue fields "CPV"
  let relative := fieldValue fields "PATH"
  let clean := cleanPath (relative.map fun c => if c = '\\' then '/' else c)
  require (cpv ≠ [] && relative ≠ [] && clean = relative && clean ≠ ".".toList &&
      clean ≠ "..".toList && !"../".toList.isPrefixOf clean && !"/".toList.isPrefixOf clean)
    "Packages stanza has invalid CPV or PATH"
  require (atoi (String.ofList (fieldValue fields "SIZE"))).isSome
    s!"Packages stanza {(String.ofList relative).quote} has invalid SIZE"
  .ok ⟨cpv, relative, block⟩

/-- One block after the stanzas of the blocks before it. -/
def addStanza (stanzas : List PackagesStanza) (block : Text) :
    Except String (List PackagesStanza) :=
  if trimChars block = [] then .ok stanzas
  else do
    let stanza ← parseStanza (trimChars block)
    require (stanzas.all fun other => other.path ≠ stanza.path)
      s!"Packages index repeats PATH {(String.ofList stanza.path).quote}"
    .ok (stanzas ++ [stanza])

/-- The preamble must be one of the supported version. -/
def checkPreamble (block : Text) : Except String Unit :=
  match packagesFields block with
  | .error _ => .error "unsupported Packages preamble"
  | .ok fields => require (fieldValue fields "VERSION" = "0".toList) "unsupported Packages preamble"

/-- The blocks of an index: `\r\n` counts as a line end, blank ends do not count. -/
def indexBlocks (document : Text) : List Text :=
  splitPairs '\n' (trimChars (collapse '\r' '\n' document))

def readStanzas (document : Text) : Except String (List PackagesStanza) :=
  match indexBlocks document with
  | [] => .error "Packages index is empty"
  | preamble :: blocks => do
    checkPreamble preamble
    blocks.foldlM addStanza []

/-- The largest index that is read for a merge. -/
def mergeLimit : Nat := 64 * 2 ^ 20

def parsePackagesStanzas (document : Text) : Except String (List PackagesStanza) := do
  require (byteLength document ≤ mergeLimit) "Packages index exceeds merge limit"
  readStanzas document

/-! ## Merging -/

/-- Stanzas are listed by package, then by path. -/
def PackagesStanza.rank (stanza : PackagesStanza) : Text ×ₗ Text :=
  toLex (stanza.cpv, stanza.path)

def preambleBlock (arch : Text) (seconds packages : Nat) : Text :=
  ['\n'].intercalate [
    "ARCH: ".toList ++ arch,
    "TIMESTAMP: ".toList ++ (Nat.toDigits 10 seconds),
    "VERSION: 0".toList,
    "PACKAGES: ".toList ++ (Nat.toDigits 10 packages)]

/-- Write an index; the timestamp is printed in seconds. -/
def renderIndex (arch : Text) (timestamp : Nat) (stanzas : List PackagesStanza) : Text :=
  preambleBlock arch (timestamp / 1000000) stanzas.length ++ "\n\n".toList ++
    (stanzas.map fun stanza => stanza.document ++ "\n\n".toList).flatten

/-- The stanzas of an index that may be missing. -/
def sourceStanzas (source : Text) : Except String (List PackagesStanza) :=
  if source = [] then .ok [] else parsePackagesStanzas source

def mergePackagesIndexes (previous current arch : Text) (timestamp : Nat) : Except String Text := do
  require (trimChars arch ≠ [] && timestamp ≠ 0)
    "Packages merge requires architecture and timestamp"
  -- No path occurs twice in a parsed index: its stanzas are a map by path already.
  let old ← sourceStanzas previous
  let new ← sourceStanzas current
  .ok (renderIndex arch timestamp
    (sorted PackagesStanza.rank (overlay PackagesStanza.path old new)))

/-! ## Well-formed blocks -/

/-- A block that is found again between empty lines. -/
structure Block (b : Text) : Prop where
  trimmed : Trimmed b
  nonempty : b ≠ []
  unbroken : PairFree '\n' '\n' b

variable {b arch block previous current text : Text} {c : Char} {blocks : List Text}
  {stanzas out : List PackagesStanza} {timestamp : Nat}

theorem Block.getLast_ne (h : Block b) (hc : isSpace c = true) :
    c ∉ b.getLast? := by
  intro hmem
  have hspace := h.trimmed.2 c hmem
  rw [hc] at hspace
  cases hspace

theorem Block.closed (h : Block b) : PairFree '\n' '\n' (b ++ ['\n']) := by
  refine pairFree_append.mpr ⟨h.unbroken, pairFree_singleton, ?_⟩
  rintro c hc d - ⟨rfl, -⟩
  exact h.getLast_ne (by decide) hc

theorem intercalate_blocks (hne : blocks ≠ []) (h : ∀ b ∈ blocks, Block b) :
    Trimmed (['\n', '\n'].intercalate blocks) ∧ ['\n', '\n'].intercalate blocks ≠ [] := by
  induction blocks with
  | nil => exact absurd rfl hne
  | cons b blocks ih =>
    have hb := h b (by simp)
    cases blocks with
    | nil => simpa using ⟨hb.trimmed, hb.nonempty⟩
    | cons next blocks =>
      rcases ih (by simp) fun b' hb' => h b' (mem_cons_of_mem _ hb') with
        ⟨htrim, hnonempty⟩
      have hjoin : ['\n', '\n'].intercalate (b :: next :: blocks) =
          b ++ '\n' :: '\n' :: ['\n', '\n'].intercalate (next :: blocks) := by
        simp
      rw [hjoin]
      refine ⟨⟨?_, ?_⟩, by simp⟩
      · rcases exists_cons_of_ne_nil hb.nonempty with ⟨c, cs, rfl⟩
        simpa using hb.trimmed.1
      · rcases exists_cons_of_ne_nil hnonempty with ⟨c, cs, hcs⟩
        rw [hcs] at htrim ⊢
        simpa using htrim.2

theorem isSpace_of_mem_toDigits {n : Nat} (h : c ∈ Nat.toDigits 10 n) :
    isSpace c = false :=
  isSpace_of_isDigit (Nat.isDigit_of_mem_toDigits (by decide) (by decide) h)

/-- The lines of a preamble after the first one. -/
def preambleRest (seconds packages : Nat) : List Text :=
  ["TIMESTAMP: ".toList ++ Nat.toDigits 10 seconds, "VERSION: 0".toList,
    "PACKAGES: ".toList ++ Nat.toDigits 10 packages]

theorem preambleRest_lines {seconds packages : Nat} :
    ∀ line ∈ preambleRest seconds packages, '\n' ∉ line ∧ '\r' ∉ line ∧ line ≠ [] := by
  have hfree : ∀ (name : Text) (n : Nat) (c : Char), c ∉ name → isSpace c = true →
      c ∉ name ++ Nat.toDigits 10 n := by
    intro name n c hname hc hmem
    rcases mem_append.mp hmem with hmem | hmem
    · exact hname hmem
    · rw [isSpace_of_mem_toDigits hmem] at hc
      cases hc
  intro line hline
  simp only [preambleRest, mem_cons, not_mem_nil, or_false] at hline
  rcases hline with rfl | rfl | rfl
  · exact ⟨hfree _ _ _ (by decide) (by decide), hfree _ _ _ (by decide) (by decide), by simp⟩
  · decide
  · exact ⟨hfree _ _ _ (by decide) (by decide), hfree _ _ _ (by decide) (by decide), by simp⟩

theorem preamble_lines (harch : '\n' ∉ arch) {seconds packages : Nat} :
    ∀ line ∈ ("ARCH: ".toList ++ arch) :: preambleRest seconds packages, '\n' ∉ line ∧ line ≠ [] := by
  refine forall_mem_cons.mpr ⟨⟨?_, by simp⟩, fun line hline => ?_⟩
  · rw [mem_append, not_or]
    exact ⟨by decide, harch⟩
  · rcases preambleRest_lines line hline with ⟨hfeed, -, hne⟩
    exact ⟨hfeed, hne⟩

theorem block_preamble (harch : '\n' ∉ arch) {seconds packages : Nat} :
    Block (preambleBlock arch seconds packages) := by
  have hlast : (preambleBlock arch seconds packages).getLast? =
      (Nat.toDigits 10 packages).getLast? := by
    have hsuffix : preambleBlock arch seconds packages = (['\n'].intercalate [
        "ARCH: ".toList ++ arch, "TIMESTAMP: ".toList ++ (Nat.toDigits 10 seconds),
        "VERSION: 0".toList] ++ "\nPACKAGES: ".toList) ++ (Nat.toDigits 10 packages) := by
      simp [preambleBlock]
    rw [hsuffix, getLast?_append_of_ne_nil _ Nat.toDigits_ne_nil]
  refine ⟨⟨?_, ?_⟩, by simp [preambleBlock], pairFree_lines (preamble_lines harch)⟩
  · intro c hc
    have hA : 'A' = c := by simpa [preambleBlock, List.intercalate] using hc
    rw [← hA]
    decide
  · intro c hc
    rw [hlast] at hc
    exact isSpace_of_mem_toDigits (mem_of_getLast? hc)

/-- A stanza as it is read from an index. -/
structure WellFormed (stanza : PackagesStanza) : Prop extends Block stanza.document where
  parsed : parseStanza stanza.document = .ok stanza

theorem parseStanza_document {stanza : PackagesStanza} (h : parseStanza block = .ok stanza) :
    stanza.document = block := by
  simp only [parseStanza, bind_eq_ok] at h
  rcases h with ⟨fields, -, -, -, -, -, hstanza⟩
  cases hstanza
  rfl

theorem addStanza_cases (h : addStanza stanzas block = .ok out) :
    out = stanzas ∨ ∃ stanza, trimChars block ≠ [] ∧ parseStanza (trimChars block) = .ok stanza ∧
      (∀ other ∈ stanzas, other.path ≠ stanza.path) ∧ out = stanzas ++ [stanza] := by
  unfold addStanza at h
  split at h
  · cases h
    exact Or.inl rfl
  rename_i hne
  simp only [bind_eq_ok, require_eq_ok] at h
  rcases h with ⟨stanza, hparse, -, hnew, hout⟩
  cases hout
  exact Or.inr ⟨stanza, hne, hparse, by simpa using hnew, rfl⟩

/-- The stanzas found so far are a map of well-formed stanzas. -/
def Readable (stanzas : List PackagesStanza) : Prop :=
  Keyed PackagesStanza.path stanzas ∧ ∀ stanza ∈ stanzas, WellFormed stanza

/-- No `\r\n` is left in a stanza. -/
def Plain (stanzas : List PackagesStanza) : Prop :=
  ∀ stanza ∈ stanzas, PairFree '\r' '\n' stanza.document

theorem addStanza_readable (h : addStanza stanzas block = .ok out) (hstanzas : Readable stanzas)
    (hunbroken : PairFree '\n' '\n' block) : Readable out := by
  rcases addStanza_cases h with rfl | ⟨stanza, hne, hparse, hnew, rfl⟩
  · exact hstanzas
  have hdocument := parseStanza_document hparse
  have hsub := trimChars_isInfix block
  have hwf : WellFormed stanza := {
    trimmed := hdocument ▸ trimmed_trimChars block
    nonempty := hdocument ▸ hne
    unbroken := hdocument ▸ hunbroken.of_infix hsub
    parsed := hdocument ▸ hparse }
  constructor
  · have hkeys : (stanzas.map PackagesStanza.path ++ [stanza.path]).Nodup := by
      refine nodup_append.mpr ⟨hstanzas.1, by simp, ?_⟩
      intro p hp q hq
      rcases mem_map.mp hp with ⟨other, hother, rfl⟩
      rw [mem_singleton.mp hq]
      exact hnew other hother
    simpa [Keyed] using hkeys
  · intro other hother
    rcases mem_append.mp hother with hother | hother
    · exact hstanzas.2 other hother
    · rw [mem_singleton.mp hother]
      exact hwf

theorem foldlM_addStanza_readable (h : blocks.foldlM addStanza stanzas = .ok out)
    (hstanzas : Readable stanzas)
    (hblocks : ∀ b ∈ blocks, PairFree '\n' '\n' b) : Readable out := by
  induction blocks generalizing stanzas with
  | nil =>
    cases h
    exact hstanzas
  | cons b blocks ih =>
    rw [foldlM_cons, bind_eq_ok] at h
    rcases h with ⟨next, hstep, hrest⟩
    exact ih hrest (addStanza_readable hstep hstanzas (hblocks b (by simp)))
      fun b' hb' => hblocks b' (mem_cons_of_mem _ hb')

theorem readStanzas_readable {document : Text} (h : readStanzas document = .ok stanzas) :
    Readable stanzas := by
  unfold readStanzas at h
  split at h
  · cases h
  rename_i preamble blocks hblocks
  rw [bind_eq_ok] at h
  rcases h with ⟨⟨⟩, -, hfold⟩
  refine foldlM_addStanza_readable hfold ⟨by simp [Keyed], by simp⟩ fun b hb => ?_
  have hmem : b ∈ indexBlocks document := hblocks ▸ mem_cons_of_mem _ hb
  exact pairFree_of_mem_splitPairs b hmem

/-- Every text that is added is one of the blocks, without blanks around it. -/
theorem foldlM_addStanza_mem (h : blocks.foldlM addStanza stanzas = .ok out) :
    ∀ stanza ∈ out, stanza ∈ stanzas ∨ ∃ b ∈ blocks, stanza.document = trimChars b := by
  induction blocks generalizing stanzas with
  | nil =>
    cases h
    exact fun stanza hstanza => .inl hstanza
  | cons b blocks ih =>
    rw [foldlM_cons, bind_eq_ok] at h
    rcases h with ⟨next, hstep, hrest⟩
    intro stanza hstanza
    rcases ih hrest stanza hstanza with hnext | ⟨b', hb', hdocument⟩
    · rcases addStanza_cases hstep with rfl | ⟨new, -, hparse, -, rfl⟩
      · exact .inl hnext
      · rcases mem_append.mp hnext with hold | hnew
        · exact .inl hold
        · rw [mem_singleton.mp hnew]
          exact .inr ⟨b, mem_cons_self, parseStanza_document hparse⟩
    · exact .inr ⟨b', mem_cons_of_mem _ hb', hdocument⟩

theorem plain_of_pairFree {document : Text} (hfeeds : PairFree '\r' '\n' document)
    (h : readStanzas document = .ok stanzas) : Plain stanzas := by
  unfold readStanzas at h
  split at h
  · cases h
  rename_i preamble blocks hblocks
  rw [bind_eq_ok] at h
  rcases h with ⟨⟨⟩, -, hfold⟩
  intro stanza hstanza
  rcases foldlM_addStanza_mem hfold stanza hstanza with hnone | ⟨b, hb, hdocument⟩
  · cases hnone
  have hmem : b ∈ indexBlocks document := hblocks ▸ mem_cons_of_mem _ hb
  rw [indexBlocks, collapse_eq_self hfeeds] at hmem
  rw [hdocument]
  exact hfeeds.of_infix ((trimChars_isInfix b).trans
    ((infix_of_mem_splitPairs b hmem).trans (trimChars_isInfix document)))

/-! ## Reading a rendered index -/

def renderedBlocks (arch : Text) (timestamp : Nat) (stanzas : List PackagesStanza) : List Text :=
  preambleBlock arch (timestamp / 1000000) stanzas.length ::
    stanzas.map PackagesStanza.document

theorem renderIndex_eq :
    renderIndex arch timestamp stanzas =
      ['\n', '\n'].intercalate (renderedBlocks arch timestamp stanzas) ++ ['\n', '\n'] := by
  have hjoin : ∀ (block : Text) (docs : List Text),
      block ++ ['\n', '\n'] ++ (docs.map fun doc => doc ++ ['\n', '\n']).flatten =
        ['\n', '\n'].intercalate (block :: docs) ++ ['\n', '\n'] := by
    intro block docs
    induction docs generalizing block with
    | nil => simp
    | cons doc docs ih =>
      have hcons : ['\n', '\n'].intercalate (block :: doc :: docs) =
          block ++ ['\n', '\n'] ++ ['\n', '\n'].intercalate (doc :: docs) := by
        simp
      rw [hcons, append_assoc _ _ ['\n', '\n'], ← ih doc]
      simp
  have hrender := hjoin (preambleBlock arch (timestamp / 1000000) stanzas.length)
    (stanzas.map PackagesStanza.document)
  rw [renderedBlocks, ← hrender, map_map]
  rfl

theorem packagesField_line {fields : List (Text × Text)} (key : Text) {value : Text} (hcolon : ':' ∉ key)
    (hkey : key ≠ [] ∧ ' ' ∉ key ∧ '\t' ∉ key) (hnew : ∀ field ∈ fields, field.1 ≠ key) :
    packagesField fields (key ++ ':' :: ' ' :: value) = .ok (fields ++ [(key, value)]) := by
  have hall : fields.all (fun field => field.1 ≠ key) = true := by simpa using hnew
  simp only [packagesField, cutPair_append hcolon]
  rw [require_bind_eq_ok, require_bind_eq_ok]
  exact ⟨by simp [hkey], hall, rfl⟩

section RoundTrip

variable {arch : Text} (harch : '\n' ∉ arch) {timestamp : Nat}
  {stanzas : List PackagesStanza} (hstanzas : Readable stanzas)

include harch hstanzas

theorem renderedBlocks_blocks : ∀ b ∈ renderedBlocks arch timestamp stanzas, Block b := by
  intro b hb
  rcases mem_cons.mp hb with rfl | hb
  · exact block_preamble harch
  · rcases mem_map.mp hb with ⟨stanza, hstanza, rfl⟩
    exact (hstanzas.2 stanza hstanza).toBlock

theorem splitPairs_renderIndex : splitPairs '\n' (trimChars (renderIndex arch timestamp stanzas)) =
    renderedBlocks arch timestamp stanzas := by
  have hblocks : ∀ b ∈ renderedBlocks arch timestamp stanzas, Block b :=
    renderedBlocks_blocks harch hstanzas
  rcases intercalate_blocks (cons_ne_nil _ _) hblocks with ⟨htrim, hne⟩
  have htrimmed : trimChars (renderIndex arch timestamp stanzas) =
      ['\n', '\n'].intercalate (renderedBlocks arch timestamp stanzas) := by
    rw [renderIndex_eq]
    exact trimChars_append htrim hne (by simp [isSpace])
  rw [htrimmed]
  exact splitPairs_intercalate (cons_ne_nil _ _) fun b hb => (hblocks b hb).closed

omit harch in
theorem pairFree_documents (hplain : Plain stanzas) :
    PairFree '\r' '\n' (stanzas.map fun stanza => stanza.document ++ "\n\n".toList).flatten := by
  have hwf := hstanzas.2
  clear hstanzas
  induction stanzas with
  | nil => exact pairFree_nil
  | cons stanza stanzas ih =>
    rcases forall_mem_cons.mp hplain with ⟨hfirst, hplain⟩
    rcases forall_mem_cons.mp hwf with ⟨hblock, hwf⟩
    rw [map_cons, flatten_cons]
    refine pairFree_append.mpr ⟨pairFree_append.mpr ⟨hfirst, by decide, ?_⟩, ih hplain hwf, ?_⟩
    · rintro c hc d - ⟨rfl, -⟩
      exact hblock.toBlock.getLast_ne (by decide) hc
    · rintro c hc d - ⟨rfl, -⟩
      simp at hc

/-- Of a carriage return at its end, the architecture loses one; the stanzas are read as they are. -/
theorem collapse_renderIndex (hplain : Plain stanzas) : ∃ name, '\n' ∉ name ∧
    collapse '\r' '\n' (renderIndex arch timestamp stanzas) = renderIndex name timestamp stanzas := by
  have hrest : ∀ name, renderIndex name timestamp stanzas = "ARCH: ".toList ++ (name ++ '\n' ::
      (['\n'].intercalate (preambleRest (timestamp / 1000000) stanzas.length) ++ "\n\n".toList ++
        (stanzas.map fun stanza => stanza.document ++ "\n\n".toList).flatten)) := by
    intro name
    simp [renderIndex, preambleBlock, preambleRest]
  have hfeeds : PairFree '\r' '\n' ('\n' ::
      (['\n'].intercalate (preambleRest (timestamp / 1000000) stanzas.length) ++ "\n\n".toList ++
        (stanzas.map fun stanza => stanza.document ++ "\n\n".toList).flatten)) := by
    rw [← cons_append]
    refine pairFree_append.mpr ⟨pairFree_of_not_mem ?_, pairFree_documents hstanzas hplain, ?_⟩
    · have hline : ∀ line ∈ preambleRest (timestamp / 1000000) stanzas.length, '\r' ∉ line :=
        fun line hmem => (preambleRest_lines line hmem).2.1
      simp only [preambleRest, forall_mem_cons, mem_append, not_or] at hline
      simp [preambleRest, hline]
    · rintro c hc d - ⟨rfl, -⟩
      rw [← cons_append, getLast?_append_of_ne_nil _ (by decide)] at hc
      exact absurd hc (by decide)
  rcases collapse_line harch hfeeds with ⟨name, hname, hcollapse⟩
  refine ⟨name, fun hmem => harch (hname.subset hmem), ?_⟩
  rw [hrest, hrest, collapse_append (by decide), hcollapse]

omit hstanzas in
theorem checkPreamble_preambleBlock (seconds packages : Nat) :
    checkPreamble (preambleBlock arch seconds packages) = .ok () := by
  have hsplit : (preambleBlock arch seconds packages).splitOn '\n' = _ :=
    splitOn_intercalate '\n' (fun line hline => (preamble_lines harch line hline).1)
      (cons_ne_nil _ _)
  have hfields : packagesFields (preambleBlock arch seconds packages) = .ok [
      ("ARCH".toList, arch), ("TIMESTAMP".toList, Nat.toDigits 10 seconds),
      ("VERSION".toList, "0".toList), ("PACKAGES".toList, Nat.toDigits 10 packages)] := by
    simp only [packagesFields, hsplit, foldlM_cons, foldlM_nil, bind_eq_ok]
    exact ⟨_, packagesField_line "ARCH".toList (by decide) (by decide) (by simp),
      _, packagesField_line "TIMESTAMP".toList (by decide) (by decide) (by simp),
      _, packagesField_line "VERSION".toList (by decide) (by decide) (by simp),
      _, packagesField_line "PACKAGES".toList (by decide) (by decide) (by simp), rfl⟩
  simp only [checkPreamble, hfields]
  rfl

omit harch in
theorem foldlM_addStanza_documents (before : List PackagesStanza)
    (hbefore : Keyed PackagesStanza.path (before ++ stanzas)) :
    (stanzas.map PackagesStanza.document).foldlM addStanza before = .ok (before ++ stanzas) := by
  have hwf := hstanzas.2
  clear hstanzas
  induction stanzas generalizing before with
  | nil => simp [pure, Except.pure]
  | cons stanza stanzas ih =>
    have hstanza := hwf stanza (by simp)
    have hpath : ∀ other ∈ before, other.path ≠ stanza.path := by
      intro other hother heq
      have hnodup := (nodup_append.mp (by simpa [Keyed] using hbefore)).2.2
      exact hnodup other.path (mem_map_of_mem hother) stanza.path (by simp) heq
    have hadd : addStanza before stanza.document = .ok (before ++ [stanza]) := by
      rw [addStanza, trimChars_of_trimmed hstanza.trimmed, if_neg hstanza.nonempty,
        hstanza.parsed, bind_eq_ok]
      refine ⟨stanza, rfl, ?_⟩
      rw [require_bind_eq_ok]
      exact ⟨by simpa using hpath, rfl⟩
    rw [map_cons, foldlM_cons, hadd, bind_eq_ok]
    refine ⟨before ++ [stanza], rfl, ?_⟩
    have hrest := ih (before ++ [stanza]) (by simpa using hbefore)
      fun other hother => hwf other (mem_cons_of_mem _ hother)
    simpa using hrest

/-- A rendered index is read back as the stanzas it was written from. -/
theorem readStanzas_renderIndex (hplain : Plain stanzas) :
    readStanzas (renderIndex arch timestamp stanzas) = .ok stanzas := by
  have hfold := foldlM_addStanza_documents hstanzas [] (by simpa using hstanzas.1)
  rcases collapse_renderIndex harch hstanzas hplain with ⟨name, hname, hcollapse⟩
  rw [readStanzas, indexBlocks, hcollapse, splitPairs_renderIndex hname hstanzas]
  simp only [renderedBlocks, checkPreamble_preambleBlock hname, hfold, nil_append]
  rfl

end RoundTrip

/-! ## What a merge lists -/

/-- The `PATH` entries of an index; an unreadable one has none. -/
def pathEntries (document : Text) : List Text :=
  match readStanzas document with
  | .ok stanzas => stanzas.map PackagesStanza.path
  | .error _ => []

def mergedStanzas (old new : List PackagesStanza) : List PackagesStanza :=
  sorted PackagesStanza.rank (overlay PackagesStanza.path old new)

theorem Readable.merged {old new : List PackagesStanza} (hold : Readable old)
    (hnew : Readable new) : Readable (mergedStanzas old new) := by
  refine ⟨Keyed.sorted (Keyed.overlay hold.1), ?_⟩
  intro stanza hstanza
  rcases (mem_overlay hnew.1).mp (mem_sorted.mp hstanza) with hmem | ⟨hmem, -⟩
  · exact hnew.2 stanza hmem
  · exact hold.2 stanza hmem

theorem Plain.merged {old new : List PackagesStanza} (hold : Plain old) (hnew : Plain new)
    (hkeyed : Keyed PackagesStanza.path new) : Plain (mergedStanzas old new) := by
  intro stanza hstanza
  rcases (mem_overlay hkeyed).mp (mem_sorted.mp hstanza) with hmem | ⟨hmem, -⟩
  · exact hnew stanza hmem
  · exact hold stanza hmem

theorem sourceStanzas_readable {source : Text} (h : sourceStanzas source = .ok stanzas) :
    Readable stanzas ∧ pathEntries source = stanzas.map PackagesStanza.path := by
  unfold sourceStanzas at h
  split at h
  · rename_i hempty
    cases h
    subst hempty
    exact ⟨⟨by simp [Keyed], by simp⟩, by decide⟩
  · rw [parsePackagesStanzas, require_bind_eq_ok] at h
    exact ⟨readStanzas_readable h.2, by rw [pathEntries, h.2]⟩

/-- No `\r\n` is left in the stanzas of an index, if it can be read. -/
def PlainIndex (source : Text) : Prop :=
  ∀ stanzas, sourceStanzas source = .ok stanzas → Plain stanzas

theorem plainIndex_of_pairFree {source : Text} (h : PairFree '\r' '\n' source) : PlainIndex source := by
  intro stanzas hread
  unfold sourceStanzas at hread
  split at hread
  · cases hread
    exact fun stanza hstanza => absurd hstanza not_mem_nil
  · rw [parsePackagesStanzas, require_bind_eq_ok] at hread
    exact plain_of_pairFree h hread.2

theorem mergePackagesIndexes_spec (harch : '\n' ∉ arch) (hprevious : PlainIndex previous)
    (hcurrent : PlainIndex current)
    (h : mergePackagesIndexes previous current arch timestamp = .ok text) :
    ∃ old new, sourceStanzas previous = .ok old ∧ sourceStanzas current = .ok new ∧
      text = renderIndex arch timestamp (mergedStanzas old new) ∧
      readStanzas text = .ok (mergedStanzas old new) ∧ PlainIndex text := by
  simp only [mergePackagesIndexes, bind_eq_ok] at h
  rcases h with ⟨-, -, old, hold, new, hnew, htext⟩
  have hreadable := (sourceStanzas_readable hnew).1
  have hmerged := (sourceStanzas_readable hold).1.merged hreadable
  have hplain := (hprevious old hold).merged (hcurrent new hnew) hreadable.1
  cases htext
  have hread : readStanzas (renderIndex arch timestamp (mergedStanzas old new)) = _ :=
    readStanzas_renderIndex harch hmerged hplain
  refine ⟨old, new, hold, hnew, rfl, hread, fun stanzas hstanzas => ?_⟩
  rw [sourceStanzas, if_neg (by simp [renderIndex]), parsePackagesStanzas, require_bind_eq_ok] at hstanzas
  cases hread.symm.trans hstanzas.2
  exact hplain

theorem pathEntries_mergePackagesIndexes (harch : '\n' ∉ arch) (hprevious : PlainIndex previous)
    (hcurrent : PlainIndex current)
    (h : mergePackagesIndexes previous current arch timestamp = .ok text) (p : Text) :
    p ∈ pathEntries text ↔ p ∈ pathEntries previous ∨ p ∈ pathEntries current := by
  rcases mergePackagesIndexes_spec harch hprevious hcurrent h with
    ⟨old, new, hold, hnew, -, hread, -⟩
  rw [(sourceStanzas_readable hold).2, (sourceStanzas_readable hnew).2, pathEntries, hread]
  simp only [mem_map, mergedStanzas, mem_sorted]
  exact mem_keys_overlay

example : mergePackagesIndexes [] "VERSION: 0\r\n\r\nCPV: a-1\nSIZE: 4\nPATH: a".toList ['x'] 7000000 =
    .ok "ARCH: x\nTIMESTAMP: 7\nVERSION: 0\nPACKAGES: 1\n\nCPV: a-1\nSIZE: 4\nPATH: a\n\n".toList := by
  decide +kernel

end PortageEngine.Packages

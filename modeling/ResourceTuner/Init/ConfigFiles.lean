import ResourceTuner.Signals.SignalBuilder

/-!
# The files the server reads at start-up

The steps of `RestuneInit.cpp` that every kind of configuration goes through.  The common file is read
first, and has to be there; then the file an extension has named or, where none has, the custom file if
there is one.

* **`parseUtil`** — one file;
* **`fetchFiles`**, **`fetchCustomFile`** — both files, or only the second;
* **`HaveEntries`** — the files in terms of what is in them;
* **`fetchFiles_of_haveEntries`** — a parser of files is one of entries.
-/

namespace ResourceTuner.RestuneInit

/-- The error codes of the start-up. -/
inductive ErrCode where
  | RC_SUCCESS
  | RC_FILE_NOT_FOUND
  | RC_YAML_PARSING_ERROR
  | RC_YAML_INVALID_SYNTAX
  | RC_MEMORY_ALLOCATION_FAILURE
  | RC_INVALID_VALUE
  | RC_RESOURCE_NOT_SUPPORTED
  | RC_PROP_PARSING_ERROR
  deriving DecidableEq, Repr

def ErrCode.ofParser : RestuneParser.ErrCode → ErrCode
  | .RC_SUCCESS => .RC_SUCCESS
  | .RC_YAML_PARSING_ERROR => .RC_YAML_PARSING_ERROR
  | .RC_YAML_INVALID_SYNTAX => .RC_YAML_INVALID_SYNTAX
  | .RC_MEMORY_ALLOCATION_FAILURE => .RC_MEMORY_ALLOCATION_FAILURE
  | .RC_INVALID_VALUE => .RC_INVALID_VALUE
  | .RC_RESOURCE_NOT_SUPPORTED => .RC_RESOURCE_NOT_SUPPORTED

theorem ErrCode.ofParser_eq_success_iff (rc : RestuneParser.ErrCode) :
    ErrCode.ofParser rc = .RC_SUCCESS ↔ rc = .RC_SUCCESS := by
  cases rc <;> decide

/-- The files of the device: what `access` says, and the events of those that `fopen` opens. -/
structure Files (ε : Type) where
  fileExists : String → Bool
  opened : String → Option (List ε)

section

variable {ε σ : Type} (files : Files ε) (parser : Bool → σ → List ε → ErrCode × σ)

/-- `parseUtil`, with the parser for a kind of configuration. -/
def parseUtil (filePath : String) (isCustom : Bool) (s : σ) : ErrCode × σ :=
  if filePath.length = 0 then (.RC_FILE_NOT_FOUND, s)
  else
    match files.opened filePath with
    | none => (.RC_FILE_NOT_FOUND, s)
    | some events => parser isCustom s events

/-- The file of the extension or else the custom one. -/
def fetchCustomFile (extension custom : String) (s : σ) : ErrCode × σ :=
  if 0 < extension.length then parseUtil files parser extension true s
  else if files.fileExists custom then parseUtil files parser custom true s
  else (.RC_SUCCESS, s)

/-- The common file, and then the other one. -/
def fetchFiles (common extension custom : String) (s : σ) : ErrCode × σ :=
  let made := parseUtil files parser common false s
  if made.1 ≠ .RC_SUCCESS then made else fetchCustomFile files parser extension custom made.2

end

/-! ## Files of entries -/

section

variable {ε σ α : Type}

/-- The second file, if there is one. -/
def customFile (files : Files ε) (extension custom : String) : Option String :=
  if 0 < extension.length then some extension
  else if files.fileExists custom then some custom
  else none

/-- The second file has these entries; where there is none it counts as one without entries. -/
structure HaveCustomEntries (document : List α → List ε) (files : Files ε)
    (extension custom : String) (entries : List α) : Prop where
  second : ∀ path, customFile files extension custom = some path →
    files.opened path = some (document entries)
  single : customFile files extension custom = none → entries = []

/-- Both files have these entries. -/
structure HaveEntries (document : List α → List ε) (files : Files ε) (common extension custom : String)
    (entries customEntries : List α) : Prop extends
    HaveCustomEntries document files extension custom customEntries where
  first : files.opened common = some (document entries)

variable {document : List α → List ε} {files : Files ε} {parser : Bool → σ → List ε → ErrCode × σ}
  {parsed : Bool → σ → List α → ErrCode × σ} {common extension custom : String}
  {entries customEntries : List α}

theorem parseUtil_document
    (hparser : ∀ isCustom s entries, parser isCustom s (document entries) = parsed isCustom s entries)
    {path : String} (hpath : path.length ≠ 0) (hfile : files.opened path = some (document entries))
    (isCustom : Bool) (s : σ) :
    parseUtil files parser path isCustom s = parsed isCustom s entries := by
  rw [parseUtil, if_neg hpath, hfile]
  exact hparser isCustom s entries

theorem fetchCustomFile_of_haveEntries
    (hparser : ∀ isCustom s entries, parser isCustom s (document entries) = parsed isCustom s entries)
    (hnil : ∀ s, parsed true s [] = (.RC_SUCCESS, s)) (hcustom : custom.length ≠ 0)
    (h : HaveCustomEntries document files extension custom customEntries) (s : σ) :
    fetchCustomFile files parser extension custom s = parsed true s customEntries := by
  obtain ⟨hsecond, hsingle⟩ := h
  unfold customFile at hsecond hsingle
  rw [fetchCustomFile]
  split
  · rename_i hextension
    rw [if_pos hextension] at hsecond
    exact parseUtil_document hparser (Nat.pos_iff_ne_zero.mp hextension) (hsecond extension rfl) true s
  · rename_i hextension
    rw [if_neg hextension] at hsecond hsingle
    split
    · rename_i hexists
      rw [if_pos hexists] at hsecond
      exact parseUtil_document hparser hcustom (hsecond custom rfl) true s
    · rename_i hexists
      rw [if_neg hexists] at hsingle
      rw [hsingle rfl, hnil]

/-- A parser of files is one of entries. -/
theorem fetchFiles_of_haveEntries
    (hparser : ∀ isCustom s entries, parser isCustom s (document entries) = parsed isCustom s entries)
    (hnil : ∀ s, parsed true s [] = (.RC_SUCCESS, s)) (hcommon : common.length ≠ 0)
    (hcustom : custom.length ≠ 0)
    (h : HaveEntries document files common extension custom entries customEntries) (s : σ) :
    fetchFiles files parser common extension custom s =
      if (parsed false s entries).1 ≠ .RC_SUCCESS then parsed false s entries
      else parsed true (parsed false s entries).2 customEntries := by
  rw [fetchFiles, parseUtil_document hparser hcommon h.first,
    fetchCustomFile_of_haveEntries hparser hnil hcustom h.toHaveCustomEntries]

end

end ResourceTuner.RestuneInit

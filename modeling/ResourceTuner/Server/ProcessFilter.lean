import ResourceTuner.Lib.Numerals
import ResourceTuner.Lib.UnorderedMap

/-!
# Processes that the classifier passes over

`LoadIgnoredProcesses` and `shouldProcBeIgnored` of `ContextualClassifier.cpp`.  One of two files of names
is read, the list of the processes to look at if it is there, or else the list of those to pass over.

* **`LoadIgnoredProcesses`**, **`shouldProcBeIgnored`** — the functions;
* **`getProcName`**, **`fetchComm`** — the name of a process, in two readings;
* **`Written`**, **`fileText`** — a file of names as people write one;
* **`shouldProcBeIgnored_of_files`** — who is passed over, in terms of the names in the file.
-/

namespace ResourceTuner

open Numerals (getlines firstLine)

/-- The types of `EventType`. -/
inductive EventType where
  | CC_IGNORE
  | CC_APP_OPEN
  | CC_APP_CLOSE
  deriving DecidableEq, Repr

/-- The files with their texts: what `access` says, and what can be opened. -/
structure TextFiles where
  fileExists : String → Bool
  text : String → Option String

/-! ## Names -/

/-- The characters that are cut off a name at both ends. -/
def isTrimmed (c : Char) : Bool := c = ' ' || c = '\t' || c = '\n' || c = '\r'

def trim (text : List Char) : List Char :=
  ((text.dropWhile isTrimmed).reverse.dropWhile isTrimmed).reverse

/-- A segment without anything but blanks has no name. -/
def segmentName (segment : List Char) : Option String :=
  match trim segment with
  | [] => none
  | c :: name => some (String.ofList (c :: name))

/-- `getProcName`, of the `comm` file if it can be opened. -/
def getProcName (commFile : Option String) : Option String :=
  commFile.bind fun text => segmentName (firstLine text)

/-- `fetchComm`, `none` where it fails.  A blank line is left as it is. -/
def fetchComm (procExists : Bool) (commFile : Option String) : Option String :=
  if procExists = false then none
  else
    match commFile with
    | none => some ""
    | some text => some ((segmentName (firstLine text)).getD (String.ofList (firstLine text)))

/-! ## The filter -/

structure ProcessFilter where
  mAllowedProcesses : UnorderedSet String
  mIgnoredProcesses : UnorderedSet String
  deriving DecidableEq

namespace ProcessFilter

def ALLOW_LIST_PATH : String := "/etc/urm/classifier/allow-list.txt"
def IGNORE_PROC_PATH : String := "/etc/urm/classifier/classifier-blocklist.txt"

def empty : ProcessFilter := ⟨.empty, .empty⟩

/-- The names of a file. -/
def namesOf (text : List Char) : List String :=
  (getlines '\n' text).flatMap fun line => (getlines ',' line).filterMap segmentName

def ofNames (names : List String) : UnorderedSet String := names.foldl UnorderedSet.insert .empty

/-- The file that is read. -/
def filePath (files : TextFiles) : String :=
  if files.fileExists ALLOW_LIST_PATH then ALLOW_LIST_PATH else IGNORE_PROC_PATH

def LoadIgnoredProcesses (files : TextFiles) : ProcessFilter :=
  match files.text (filePath files) with
  | none => empty
  | some text =>
    if files.fileExists ALLOW_LIST_PATH then { empty with mAllowedProcesses := ofNames (namesOf text.toList) }
    else { empty with mIgnoredProcesses := ofNames (namesOf text.toList) }

def shouldProcBeIgnored (filter : ProcessFilter) (evType : EventType) (procName : Option String) : Bool :=
  if evType = .CC_APP_CLOSE then true
  else
    match procName with
    | none => true
    | some procName =>
      if 0 < filter.mAllowedProcesses.elems.length then decide (procName ∉ filter.mAllowedProcesses)
      else decide (procName ∈ filter.mIgnoredProcesses)

theorem mem_ofNames {names : List String} {name : String} : name ∈ ofNames names ↔ name ∈ names := by
  have hfold : ∀ (names : List String) (set : UnorderedSet String),
      name ∈ names.foldl UnorderedSet.insert set ↔ name ∈ names ∨ name ∈ set := by
    intro names
    induction names with
    | nil => simp
    | cons first names ih =>
      intro set
      rw [List.foldl_cons, ih, UnorderedSet.mem_insert, List.mem_cons]
      tauto
  rw [ofNames, hfold]
  simp

theorem length_ofNames_pos {names : List String} : 0 < (ofNames names).elems.length ↔ names ≠ [] := by
  rw [List.length_pos_iff_exists_mem]
  constructor
  · rintro ⟨name, hname⟩ rfl
    exact List.not_mem_nil (mem_ofNames.mp hname)
  · intro hne
    obtain ⟨name, hname⟩ := List.exists_mem_of_ne_nil names hne
    exact ⟨name, mem_ofNames.mpr hname⟩

end ProcessFilter

/-! ## Files of names -/

/-- A name with the blanks around it. -/
structure Written where
  front : List Char
  name : List Char
  back : List Char
  blank : ∀ c ∈ front ++ back, isTrimmed c = true ∧ c ≠ '\n'
  plain : ∀ c ∈ name, c ≠ ',' ∧ c ≠ '\n'
  starts : ∀ c ∈ name.head?, isTrimmed c = false
  ends : ∀ c ∈ name.getLast?, isTrimmed c = false
  nonempty : name ≠ []

def Written.text (written : Written) : List Char := written.front ++ written.name ++ written.back

/-- Some names with commas between them. -/
def lineText (line : List Written) : List Char := List.intercalate [','] (line.map Written.text)

/-- A file of lines. -/
def fileText (lines : List (List Written)) : List Char :=
  lines.flatMap fun line => lineText line ++ ['\n']

def writtenNames (lines : List (List Written)) : List String :=
  lines.flatten.map fun written => String.ofList written.name

namespace Written

variable {written : Written}

theorem dropWhile_of_head? {text : List Char} (h : ∀ c ∈ text.head?, isTrimmed c = false) :
    text.dropWhile isTrimmed = text := by
  cases text with
  | nil => rfl
  | cons c text => rw [List.dropWhile_cons_of_neg (by simp [h c rfl])]

theorem trim_text (written : Written) : trim written.text = written.name := by
  have hfront : ∀ c ∈ written.front, isTrimmed c = true := fun c hc =>
    (written.blank c (List.mem_append_left _ hc)).1
  have hback : ∀ c ∈ written.back.reverse, isTrimmed c = true := fun c hc =>
    (written.blank c (List.mem_append_right _ (List.mem_reverse.mp hc))).1
  have hhead : ∀ c ∈ (written.name ++ written.back).head?, isTrimmed c = false := by
    rw [List.head?_append_of_ne_nil _ written.nonempty]
    exact written.starts
  have hlast : ∀ c ∈ written.name.reverse.head?, isTrimmed c = false := by
    rw [List.head?_reverse]
    exact written.ends
  rw [trim, text, List.append_assoc, List.dropWhile_append_of_pos hfront, dropWhile_of_head? hhead,
    List.reverse_append, List.dropWhile_append_of_pos hback, dropWhile_of_head? hlast,
    List.reverse_reverse]

theorem segmentName_text (written : Written) :
    segmentName written.text = some (String.ofList written.name) := by
  rw [segmentName, trim_text]
  cases hname : written.name with
  | nil => exact absurd hname written.nonempty
  | cons c name => rfl

theorem comma_notMem (written : Written) : ',' ∉ written.text := by
  intro hmem
  rcases List.mem_append.mp hmem with hmem | hback
  · rcases List.mem_append.mp hmem with hfront | hname
    · exact absurd (written.blank ',' (List.mem_append_left _ hfront)).1 (by decide)
    · exact (written.plain ',' hname).1 rfl
  · exact absurd (written.blank ',' (List.mem_append_right _ hback)).1 (by decide)

theorem newline_notMem (written : Written) : '\n' ∉ written.text := by
  intro hmem
  rcases List.mem_append.mp hmem with hmem | hback
  · rcases List.mem_append.mp hmem with hfront | hname
    · exact (written.blank '\n' (List.mem_append_left _ hfront)).2 rfl
    · exact (written.plain '\n' hname).2 rfl
  · exact (written.blank '\n' (List.mem_append_right _ hback)).2 rfl

theorem text_ne_nil (written : Written) : written.text ≠ [] := by
  simp [text, written.nonempty]

end Written

theorem lineText_cons_cons (written next : Written) (line : List Written) :
    lineText (written :: next :: line) = written.text ++ ',' :: lineText (next :: line) := by
  simp [lineText, List.intercalate]

theorem getlines_lineText (line : List Written) : getlines ',' (lineText line) = line.map Written.text := by
  induction line with
  | nil => rfl
  | cons written line ih =>
    cases line with
    | nil =>
      have hsingle : lineText [written] = written.text := by simp [lineText, List.intercalate]
      rw [hsingle, Numerals.getlines_of_not_mem written.comma_notMem written.text_ne_nil]
      rfl
    | cons next line =>
      rw [lineText_cons_cons, Numerals.getlines_append_delimiter written.comma_notMem, ih]
      rfl

theorem newline_notMem_lineText (line : List Written) : '\n' ∉ lineText line := by
  induction line with
  | nil => exact List.not_mem_nil
  | cons written line ih =>
    cases line with
    | nil =>
      have hsingle : lineText [written] = written.text := by simp [lineText, List.intercalate]
      rw [hsingle]
      exact written.newline_notMem
    | cons next line =>
      rw [lineText_cons_cons, List.mem_append, List.mem_cons, not_or, not_or]
      exact ⟨written.newline_notMem, by decide, ih⟩

/-- The names of a file are the ones that were written there. -/
theorem namesOf_fileText (lines : List (List Written)) :
    ProcessFilter.namesOf (fileText lines) = writtenNames lines := by
  have hlines : getlines '\n' (fileText lines) = lines.map lineText := by
    induction lines with
    | nil => rfl
    | cons line lines ih =>
      have hsplit : fileText (line :: lines) = lineText line ++ '\n' :: fileText lines := by
        simp [fileText]
      rw [hsplit, Numerals.getlines_append_delimiter (newline_notMem_lineText line), ih]
      rfl
  have hsegments : ∀ line : List Written, (getlines ',' (lineText line)).filterMap segmentName =
      line.map fun written => String.ofList written.name := by
    intro line
    rw [getlines_lineText, List.filterMap_map]
    have hsegment : segmentName ∘ Written.text = some ∘ fun written => String.ofList written.name :=
      funext Written.segmentName_text
    rw [hsegment, List.filterMap_eq_map]
  rw [ProcessFilter.namesOf, hlines, List.flatMap_map, writtenNames, List.map_flatten,
    ← List.flatMap_def]
  simp only [hsegments]

/-- **Who is passed over.**  Of the two files the list of allowed processes is read if it is there, even
if it names none, and then nobody is passed over; the list of ignored ones counts without it only.  A
process that is closed, or whose name cannot be read, is always passed over. -/
theorem shouldProcBeIgnored_of_files {files : TextFiles} {lines : List (List Written)}
    (htext : files.text (ProcessFilter.filePath files) = some (String.ofList (fileText lines)))
    (evType : EventType) (procName : Option String) :
    (ProcessFilter.LoadIgnoredProcesses files).shouldProcBeIgnored evType procName = false ↔
      evType ≠ .CC_APP_CLOSE ∧ ∃ name, procName = some name ∧
        if files.fileExists ProcessFilter.ALLOW_LIST_PATH then
          writtenNames lines = [] ∨ name ∈ writtenNames lines
        else name ∉ writtenNames lines := by
  rw [ProcessFilter.LoadIgnoredProcesses, htext]
  simp only [String.toList_ofList, namesOf_fileText, ProcessFilter.shouldProcBeIgnored]
  by_cases hclose : evType = .CC_APP_CLOSE
  · simp [hclose]
  · rw [if_neg hclose]
    cases procName with
    | none => simp
    | some name =>
      have hempty : ¬ 0 < (UnorderedSet.empty : UnorderedSet String).elems.length := Nat.lt_irrefl 0
      by_cases hallow : files.fileExists ProcessFilter.ALLOW_LIST_PATH
      · simp only [hallow, if_true, ProcessFilter.empty]
        by_cases hnames : writtenNames lines = []
        · have hnone : ¬ 0 < (ProcessFilter.ofNames (writtenNames lines)).elems.length :=
            ProcessFilter.length_ofNames_pos.not.mpr (not_not.mpr hnames)
          rw [if_neg hnone]
          simp [hclose, hnames]
        · rw [if_pos (ProcessFilter.length_ofNames_pos.mpr hnames)]
          simp [hclose, hnames, ProcessFilter.mem_ofNames]
      · simp only [hallow, Bool.false_eq_true, if_false, ProcessFilter.empty, if_neg hempty]
        simp [hclose, ProcessFilter.mem_ofNames]

namespace Sample

/-- A name that somebody wrote with blanks on both sides. -/
def browser : Written where
  front := [' ']
  name := ['w', 'e', 'b', ' ', 'b', 'r', 'o', 'w', 's', 'e', 'r']
  back := ['\t', '\r']
  blank := by simp [isTrimmed]
  plain := by simp
  starts := by simp [isTrimmed]
  ends := by simp [isTrimmed]
  nonempty := List.cons_ne_nil _ _

def player : Written where
  front := []
  name := ['p', 'l', 'a', 'y', 'e', 'r']
  back := []
  blank := by simp
  plain := by simp
  starts := by simp [isTrimmed]
  ends := by simp [isTrimmed]
  nonempty := List.cons_ne_nil _ _

/-- A device with both files. -/
def textFiles : TextFiles where
  fileExists _ := true
  text path :=
    if path = ProcessFilter.ALLOW_LIST_PATH then
      some (String.ofList (fileText [[browser], [], [player, browser]]))
    else none

end Sample

/-- A process that the list of allowed ones does not name. -/
theorem shouldProcBeIgnored_of_textFiles :
    (ProcessFilter.LoadIgnoredProcesses Sample.textFiles).shouldProcBeIgnored .CC_APP_OPEN
        (some "web browser") = false ∧
      (ProcessFilter.LoadIgnoredProcesses Sample.textFiles).shouldProcBeIgnored .CC_APP_OPEN
        (some "shell") ≠ false := by
  have hiff := @shouldProcBeIgnored_of_files Sample.textFiles
    [[Sample.browser], [], [Sample.player, Sample.browser]] rfl .CC_APP_OPEN
  refine ⟨(hiff _).mpr (by decide), (hiff _).not.mpr ?_⟩
  rintro ⟨-, name, hname, hmem⟩
  cases hname
  exact absurd hmem (by decide)

end ResourceTuner

/-
# What a check says

A check reads the documents of a workspace in turn.  What it says about one of them depends on that
one alone: on its name, and on what reading its file gives.  A file that cannot be opened is an
error, and the check goes on behind it.

* `Ready`: a workspace that a check can start on;
* `linesOn`, `failsOn`: what is said about a document, and whether the check fails for it;
* `checkDocuments_append`: a run says of each document that holds text or cannot be opened what there
  is to say of it, and goes on behind it;
* `check_isolates`: so does the whole check, and its exit code is the worst of what it found;
* `check_stopped_by_bytes`: a file whose bytes are no text stops it.
-/
import ContextAtlas.Proofs.Files.Tree
import ContextAtlas.Workspace.Check

namespace ContextAtlas.Workspace

/-! ## 1. Workspaces -/

/-- A workspace that a check can start on: a text names its root, its configuration loads, and the
source directory that this names is there.  The path of the directory goes on from the root. -/
structure Ready (files : FileTree) (directory root : Path) (config : Config) (sources : Path) :
    Prop where
  root_eq : findRoot files directory = .ok root
  config_eq : findConfig files root = .ok config
  sources_eq : findSources files root config = .ok sources
  inside : (sources.relativeTo? root).isSome = true

/-- A document of a workspace: what stands below the source directory under a name that ends like
those of documents. -/
def IsDocument (files : FileTree) (sources p : Path) : Prop :=
  ∃ l names, files.locate sources = .ok l ∧ p = ⟨sources.root, sources.names ++ names⟩
    ∧ names ≠ [] ∧ (files.find? (l ++ names)).isSome = true
    ∧ documentEnding.toList <:+ (names.getLast?.getD "").toList

/-- What a document is called: its path from the root of the workspace on. -/
def labelOf (root p : Path) : String := ((p.relativeTo? root).map Path.text).getD p.text

section

variable {files : FileTree} {directory root sources : Path} {config : Config}

/-- In a workspace that is ready, the check is that of its documents. -/
theorem Ready.check_eq (h : Ready files directory root config sources) (given : Option LogLevel)
    (strict : Bool) :
    check files given directory strict
      = checkAll files (given.getD config.logLevel) (strict || config.strict) root
          (files.findBelow documentEnding sources) := by
  simp only [check, bind, Except.bind, h.root_eq, h.config_eq, h.sources_eq, conclude]

/-- The documents of a workspace are all inside of it. -/
theorem Ready.isSome_relativeTo? (h : Ready files directory root config sources) {p : Path}
    (hp : p ∈ files.findBelow documentEnding sources) : (p.relativeTo? root).isSome = true := by
  obtain ⟨l, names, -, rfl, -⟩ := FileTree.mem_findBelow.mp hp
  have hin := h.inside
  unfold Path.relativeTo? at hin ⊢
  simp only [Option.isSome_ite, List.isPrefixOf_iff_prefix] at hin ⊢
  exact ⟨hin.1, hin.2.trans (List.prefix_append _ _)⟩

theorem Ready.not_unusable (h : Ready files directory root config sources) :
    sources.isUnusable = false := by
  have hsources := h.sources_eq
  simp only [findSources, bind, Except.bind] at hsources
  split at hsources
  · cases hsources
  · next hu =>
    split at hsources
    · cases hsources
    · split at hsources
      · obtain rfl := Except.ok.inj hsources
        simpa using hu
      · cases hsources

end

/-! ## 2. Documents -/

/-- What is said about a document, by what reading its file gives. -/
def linesOn (level : LogLevel) (strict : Bool) (label : String) :
    Except ReadFault String → List Line
  | .ok source =>
    let report := Report.ofText source
    printLog level (⟨.info, .commandLine, "Parsing " ++ label⟩ :: report.log)
      ++ summaryLine label report :: report.skipped.map (skipLine strict label)
  | .error (.refused e) => [.err ("Error: cannot read '" ++ label ++ "': " ++ e.message)]
  | .error _ => []

/-- Whether the check fails for a document: under strict checking for one with a skipped run, and
always for one that cannot be read. -/
def failsOn (strict : Bool) : Except ReadFault String → Bool
  | .ok source => strict && !(Report.ofText source).skipped.isEmpty
  | .error _ => true

section

variable {files : FileTree} {root p : Path} (level : LogLevel) (strict : Bool)

/-- What is said about a document is all that its check gives. -/
theorem checkDocument_eq (hin : (p.relativeTo? root).isSome = true)
    (hu : files.readText p ≠ .error .unusableName) (ht : files.readText p ≠ .error .notText) :
    checkDocument files level strict root p
      = .ok ⟨linesOn level strict (labelOf root p) (files.readText p),
          failsOn strict (files.readText p)⟩ := by
  obtain ⟨label, hlabel⟩ := Option.isSome_iff_exists.mp hin
  have hname : labelOf root p = label.text := by rw [labelOf, hlabel]; rfl
  rw [checkDocument, hlabel, hname]
  cases hread : files.readText p with
  | ok source => rfl
  | error fault =>
    cases fault with
    | refused e => rfl
    | notText => exact absurd hread ht
    | unusableName => exact absurd hread hu

theorem checkDocument_of_notText (hin : (p.relativeTo? root).isSome = true)
    (ht : files.readText p = .error .notText) :
    checkDocument files level strict root p = .error .notText := by
  obtain ⟨label, hlabel⟩ := Option.isSome_iff_exists.mp hin
  rw [checkDocument, hlabel, ht]

/-- A path that a file can have is no reason not to read it. -/
theorem readText_ne_unusableName (hp : p.isUnusable = false) :
    files.readText p ≠ .error .unusableName := by
  unfold FileTree.readText
  rw [if_neg (by simp [hp])]
  repeat' split
  all_goals simp

/-- What there is to say of some documents, each taken alone. -/
def findingsOn (files : FileTree) (level : LogLevel) (strict : Bool) (root : Path)
    (documents : List Path) : Findings where
  lines := documents.flatMap fun p => linesOn level strict (labelOf root p) (files.readText p)
  failed := documents.any fun p => failsOn strict (files.readText p)

/-- Documents that hold text or cannot be opened are checked one by one, and the check goes on
behind them. -/
theorem checkDocuments_append : ∀ {front : List Path} (behind : List Path),
    (∀ p ∈ front, (p.relativeTo? root).isSome = true ∧ files.readText p ≠ .error .unusableName) →
    (∀ p ∈ front, files.readText p ≠ .error .notText) →
    checkDocuments files level strict root (front ++ behind)
      = ((findingsOn files level strict root front).append
            (checkDocuments files level strict root behind).1,
          (checkDocuments files level strict root behind).2)
  | [], behind, _, _ => rfl
  | p :: front, behind, h, ht => by
    obtain ⟨hin, hu⟩ := h p List.mem_cons_self
    have ih := checkDocuments_append behind (fun q hq => h q (List.mem_cons_of_mem p hq))
      fun q hq => ht q (List.mem_cons_of_mem p hq)
    have hhead := checkDocument_eq level strict hin hu (ht p List.mem_cons_self)
    rw [List.cons_append, checkDocuments, hhead, ih]
    simp [findingsOn, Findings.append, Bool.or_assoc]

end

/-! ## 3. The whole check -/

/-- How a check of some documents starts. -/
def openingLine (documents : List Path) : Line :=
  .out ("Checking " ++ toString documents.length ++ " CML file(s)...")

/-- How a check ends that was not stopped. -/
def closingLine : Line := .out "No issues found."

/-- What a check says that has nothing to do. -/
def idleLine : Line := .out "No .cml files found in the workspace."

/-- A check that went over all documents with these findings. -/
def concluded (documents : List Path) (findings : Findings) : Transcript :=
  if documents = [] then .exit 0 [idleLine]
  else if findings.failed then .exit 1 (openingLine documents :: findings.lines)
  else .exit 0 (openingLine documents :: findings.lines ++ [closingLine])

section

variable {files : FileTree} {directory root sources : Path} {config : Config}

/-- A check of documents that hold text or cannot be opened goes over all of them. -/
theorem Ready.check_eq_concluded (h : Ready files directory root config sources)
    (given : Option LogLevel) (strict : Bool)
    (hread : ∀ p ∈ files.findBelow documentEnding sources,
      files.readText p ≠ .error .unusableName ∧ files.readText p ≠ .error .notText) :
    check files given directory strict
      = concluded (files.findBelow documentEnding sources)
          (findingsOn files (given.getD config.logLevel) (strict || config.strict) root
            (files.findBelow documentEnding sources)) := by
  have hrun := checkDocuments_append (given.getD config.logLevel) (strict || config.strict) []
    (fun p hp => ⟨h.isSome_relativeTo? hp, (hread p hp).1⟩) fun p hp => (hread p hp).2
  rw [List.append_nil] at hrun
  rw [h.check_eq, checkAll, concluded, hrun]
  simp [checkDocuments, Findings.empty, openingLine, closingLine, idleLine]

/-- The first document whose bytes are no text stops a check behind the documents in front of it. -/
theorem Ready.check_eq_stopped (h : Ready files directory root config sources)
    (given : Option LogLevel) (strict : Bool) {front behind : List Path} {p : Path}
    (hsplit : files.findBelow documentEnding sources = front ++ p :: behind)
    (hfront : ∀ q ∈ front,
      files.readText q ≠ .error .unusableName ∧ files.readText q ≠ .error .notText)
    (hp : files.readText p = .error .notText) :
    check files given directory strict
      = .stop .notText (openingLine (files.findBelow documentEnding sources)
          :: (findingsOn files (given.getD config.logLevel) (strict || config.strict) root
            front).lines) := by
  have hin : ∀ q ∈ front ++ p :: behind, (q.relativeTo? root).isSome = true := fun q hq =>
    h.isSome_relativeTo? (hsplit ▸ hq)
  have hrun := checkDocuments_append (given.getD config.logLevel) (strict || config.strict)
    (p :: behind) (fun q hq => ⟨hin q (List.mem_append_left _ hq), (hfront q hq).1⟩)
    fun q hq => (hfront q hq).2
  have hstop := checkDocument_of_notText (given.getD config.logLevel) (strict || config.strict)
    (hin p (by simp)) hp
  rw [h.check_eq, checkAll, if_neg (by simp [hsplit]), hsplit, hrun, checkDocuments, hstop]
  simp [Findings.empty, openingLine]

/-- **Each document is checked on its own.**  A check says of each, in the order of the paths, what
there is to say of it alone, and fails if it fails for one of them; it goes on behind a file that
cannot be opened.  Only a file whose bytes are no text ends it, and then what was said of the
documents in front stands. -/
theorem check_isolates (h : Ready files directory root config sources)
    (hnames : files.HasFileNames) (given : Option LogLevel) (strict : Bool) :
    let documents := files.findBelow documentEnding sources
    let strictly := strict || config.strict
    let lines := fun p =>
      linesOn (given.getD config.logLevel) strictly (labelOf root p) (files.readText p)
    let t := check files given directory strict
    (∀ p, p ∈ documents ↔ IsDocument files sources p)
      ∧ documents.Pairwise (fun p q => p.names < q.names)
      ∧ ((∀ p ∈ documents, files.readText p ≠ .error .notText) →
        t = if documents = [] then .exit 0 [idleLine]
          else if ∃ p ∈ documents, failsOn strictly (files.readText p) = true then
            .exit 1 (openingLine documents :: documents.flatMap lines)
          else .exit 0 (openingLine documents :: documents.flatMap lines ++ [closingLine]))
      ∧ ∀ front p behind, documents = front ++ p :: behind →
        (∀ q ∈ front, files.readText q ≠ .error .notText) → files.readText p = .error .notText →
        t = .stop .notText (openingLine documents :: front.flatMap lines) := by
  intro documents strictly lines t
  have husable : ∀ p ∈ documents, files.readText p ≠ .error .unusableName := fun p hp =>
    readText_ne_unusableName (hnames.not_unusable h.not_unusable hp)
  refine ⟨fun p => FileTree.mem_findBelow, FileTree.pairwise_findBelow, ?_, ?_⟩
  · intro htext
    have ht : t = concluded documents (findingsOn files _ strictly root documents) :=
      h.check_eq_concluded given strict fun p hp => ⟨husable p hp, htext p hp⟩
    rw [ht, concluded]
    simp [findingsOn, lines]
  · intro front p behind hsplit hfront hp
    have hmem : ∀ q ∈ front, q ∈ documents := fun q hq => hsplit ▸ List.mem_append_left _ hq
    exact h.check_eq_stopped given strict hsplit (fun q hq => ⟨husable q (hmem q hq), hfront q hq⟩)
      hp

end

/-- A workspace where a directory bears the name of a document, in front of a document that ends too
early. -/
def sampleWorkspace : FileTree :=
  ⟨[(["work", "a.cml"], .directory), (["work", "b.cml"], .file "UseCase B \x7b".toUTF8)], ["work"]⟩

theorem findBelow_sampleWorkspace :
    sampleWorkspace.findBelow documentEnding ⟨.slash, ["work"]⟩
      = [⟨.slash, ["work", "a.cml"]⟩, ⟨.slash, ["work", "b.cml"]⟩] :=
  (FileTree.findBelow_of_listed (l := ["work"]) (by decide +kernel) (by decide +kernel)).trans
    (by decide +kernel)

/-- The directory is an error, and the document behind it is checked all the same. -/
theorem check_isolates_directory :
    Ready sampleWorkspace ⟨.current, []⟩ ⟨.slash, ["work"]⟩ {} ⟨.slash, ["work"]⟩
      ∧ sampleWorkspace.HasFileNames
      ∧ check sampleWorkspace none ⟨.current, []⟩ false
        = .exit 1
            [.out "Checking 2 CML file(s)...",
              .err "Error: cannot read 'a.cml': [Errno 21] Is a directory: '/work/a.cml'",
              .out "  b.cml: 0 bounded context(s), 0 relationship(s)",
              .out "Warning: b.cml:1: unterminated block: UseCase B \x7b"] := by
  have hready : Ready sampleWorkspace ⟨.current, []⟩ ⟨.slash, ["work"]⟩ {} ⟨.slash, ["work"]⟩ :=
    ⟨by decide +kernel, by decide +kernel, by decide +kernel, by decide +kernel⟩
  have hnames : sampleWorkspace.HasFileNames := by
    unfold FileTree.HasFileNames
    decide +kernel
  refine ⟨hready, hnames, ?_⟩
  obtain ⟨-, -, hcheck, -⟩ := check_isolates hready hnames none false
  rw [findBelow_sampleWorkspace] at hcheck
  rw [hcheck (by decide +kernel)]
  decide +kernel

/-- A workspace with a file whose bytes are no text, in front of an empty document. -/
def strayBytes : FileTree :=
  ⟨[(["work", "a.cml"], .file ⟨#[0xff]⟩), (["work", "b.cml"], .file ⟨#[]⟩)], ["work"]⟩

theorem findBelow_strayBytes :
    strayBytes.findBelow documentEnding ⟨.slash, ["work"]⟩
      = [⟨.slash, ["work", "a.cml"]⟩, ⟨.slash, ["work", "b.cml"]⟩] :=
  (FileTree.findBelow_of_listed (l := ["work"]) (by decide +kernel) (by decide +kernel)).trans
    (by decide +kernel)

/-- **Bytes that are no text end a check.**  That of this workspace ends without an exit code, and
with no word on its documents. -/
theorem check_stopped_by_bytes :
    Ready strayBytes ⟨.current, []⟩ ⟨.slash, ["work"]⟩ {} ⟨.slash, ["work"]⟩
      ∧ strayBytes.HasFileNames
      ∧ check strayBytes none ⟨.current, []⟩ false
        = .stop .notText [.out "Checking 2 CML file(s)..."]
      ∧ ∀ code, (check strayBytes none ⟨.current, []⟩ false).ending ≠ .exit code := by
  have hready : Ready strayBytes ⟨.current, []⟩ ⟨.slash, ["work"]⟩ {} ⟨.slash, ["work"]⟩ :=
    ⟨by decide +kernel, by decide +kernel, by decide +kernel, by decide +kernel⟩
  have hnames : strayBytes.HasFileNames := by
    unfold FileTree.HasFileNames
    decide +kernel
  have hcheck : check strayBytes none ⟨.current, []⟩ false
      = .stop .notText [.out "Checking 2 CML file(s)..."] := by
    rw [hready.check_eq, findBelow_strayBytes]
    decide +kernel
  refine ⟨hready, hnames, hcheck, fun code hcode => ?_⟩
  rw [hcheck] at hcode
  cases hcode

end ContextAtlas.Workspace

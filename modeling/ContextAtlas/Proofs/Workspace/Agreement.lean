/-
# Strict and lenient checking agree

A strict check and a lenient one read the same documents and find the same runs to complain of.  The
lenient one warns and succeeds; the strict one says the same as errors and fails, and it fails just
if a strict dump of one of the documents fails, which stops at the first of its runs.

* `Transcript.messages`: what a command says on a channel under some opening;
* `messages_concluded`: a check that goes over all documents says what it says of each;
* `complaints_linesOn`: in both modes the skipped runs of a document are said in the same words;
* `ending_dump_iff`, `dump_of_cons`: a strict dump fails with the first of them;
* `check_modes_agree`: the two checks and the dumps compared.
-/
import ContextAtlas.Cli.Invocation
import ContextAtlas.Proofs.Workspace.Check

namespace ContextAtlas

/-! ## 1. Messages -/

/-- What a line says on a channel behind an opening, if it is such a line. -/
def Line.message? (channel : Channel) (opening : String) (l : Line) : Option String :=
  if l.channel = channel ∧ opening.toList.isPrefixOf l.text.toList then
    some (String.ofList (l.text.toList.drop opening.toList.length))
  else none

/-- What a command says on a channel in lines with an opening, in order. -/
def Transcript.messages (t : Transcript) (channel : Channel) (opening : String) : List String :=
  t.lines.filterMap (Line.message? channel opening)

/-- How a warning starts, how an error starts, and how the summary of a document does. -/
def warningOpening : String := "Warning: "

def errorOpening : String := "Error: "

def summaryOpening : String := "  "

section

variable {channel : Channel} {opening : String}

theorem message?_opened (message : String) :
    (Line.mk channel (opening ++ message)).message? channel opening = some message := by
  simp [Line.message?]

theorem message?_of_channel {l : Line} (h : l.channel ≠ channel) :
    l.message? channel opening = none := by
  simp [Line.message?, h]

/-- No line of the log looks like an error of a command. -/
theorem message?_log (l : LogLine) : l.line.message? .errors errorOpening = none := by
  obtain ⟨level, teller, text⟩ := l
  cases level <;> simp [Line.message?, LogLine.line, Line.err, errorOpening, Spelled.spell]

theorem filterMap_printLog (level : LogLevel) (log : List LogLine)
    (h : channel = .output ∨ channel = .errors ∧ opening = errorOpening) :
    (printLog level log).filterMap (Line.message? channel opening) = [] := by
  rw [List.filterMap_eq_nil_iff]
  intro l hl
  obtain ⟨entry, -, rfl⟩ := List.mem_map.mp hl
  rcases h with rfl | ⟨rfl, rfl⟩
  · exact message?_of_channel (by simp [LogLine.line, Line.err])
  · exact message?_log entry

end

namespace Workspace

/-! ## 2. Checks -/

section

variable {documents : List Path} {findings : Findings} {channel : Channel} {opening label : String}

/-- The lines around the findings of a check are on the output, and open in no special way. -/
theorem message?_around (documents : List Path) {l : Line}
    (hl : l ∈ [openingLine documents, closingLine, idleLine])
    (h : channel = .output → opening = warningOpening ∨ opening = summaryOpening) :
    l.message? channel opening = none := by
  cases channel with
  | errors =>
    have hchannel : l.channel = .output := by
      simp only [List.mem_cons, List.not_mem_nil, or_false] at hl
      rcases hl with rfl | rfl | rfl <;> rfl
    exact message?_of_channel (by simp [hchannel])
  | output =>
    simp only [List.mem_cons, List.not_mem_nil, or_false] at hl
    rcases h rfl with rfl | rfl <;> rcases hl with rfl | rfl | rfl <;>
      simp [Line.message?, openingLine, closingLine, idleLine, Line.out, warningOpening,
        summaryOpening]

/-- **A check that went over all documents says what it found.** -/
theorem messages_concluded (hnone : documents = [] → findings.lines = [])
    (h : channel = .output → opening = warningOpening ∨ opening = summaryOpening) :
    (concluded documents findings).messages channel opening
      = findings.lines.filterMap (Line.message? channel opening) := by
  have haround : ∀ l ∈ [openingLine documents, closingLine, idleLine],
      l.message? channel opening = none := fun l hl => message?_around documents hl h
  simp only [List.forall_mem_cons, List.not_mem_nil] at haround
  obtain ⟨hopening, hclosing, hidle, -⟩ := haround
  unfold concluded Transcript.messages
  split
  · next hempty => simp [Transcript.exit, hidle, hnone hempty]
  · split
    · simp [Transcript.exit, hopening]
    · simp [Transcript.exit, hopening, hclosing]

theorem ending_concluded (hnone : documents = [] → findings.failed = false) :
    (concluded documents findings).ending = .exit (if findings.failed then 1 else 0) := by
  unfold concluded
  split
  · next hempty => rw [hnone hempty]; rfl
  · split <;> simp_all [Transcript.exit]

end

/-! ## 3. Documents -/

/-- Where a check complains of a skipped run: strict checking on the channel of errors. -/
def complaintChannel : Bool → Channel
  | true => .errors
  | false => .output

/-- How such a complaint starts. -/
def complaintOpening : Bool → String
  | true => errorOpening
  | false => warningOpening

theorem skipLine_eq (strict : Bool) (label : String) (s : Skipped) :
    skipLine strict label s
      = ⟨complaintChannel strict, complaintOpening strict ++ skipMessage label s⟩ := by
  cases strict <;> rfl

section

variable (level : LogLevel) (label source : String)

/-- **Each skipped run of a document is complained of in the same words.** -/
theorem complaints_linesOn (strict : Bool) :
    (linesOn level strict label (.ok source)).filterMap
        (Line.message? (complaintChannel strict) (complaintOpening strict))
      = (Report.ofText source).skipped.map (skipMessage label) := by
  have hlog : complaintChannel strict = .output
      ∨ complaintChannel strict = .errors ∧ complaintOpening strict = errorOpening := by
    cases strict with
    | true => exact .inr ⟨rfl, rfl⟩
    | false => exact .inl rfl
  have hsummary : (summaryLine label (Report.ofText source)).message? (complaintChannel strict)
      (complaintOpening strict) = none := by
    cases strict with
    | true => exact message?_of_channel (by simp [summaryLine, Line.out, complaintChannel])
    | false => simp [Line.message?, summaryLine, Line.out, complaintOpening, warningOpening]
  have hskip : ∀ s, (skipLine strict label s).message? (complaintChannel strict)
      (complaintOpening strict) = some (skipMessage label s) := by
    intro s
    rw [skipLine_eq]
    exact message?_opened _
  rw [linesOn, List.filterMap_append, filterMap_printLog _ _ hlog, List.nil_append,
    List.filterMap_cons_none hsummary, List.filterMap_map]
  simp [hskip]

/-- In both modes a document has one summary. -/
theorem summaries_linesOn (strict : Bool) :
    (linesOn level strict label (.ok source)).filterMap (Line.message? .output summaryOpening)
      = [label ++ ": " ++ (Report.ofText source).summary] := by
  have hsummary : (summaryLine label (Report.ofText source)).message? .output summaryOpening
      = some (label ++ ": " ++ (Report.ofText source).summary) := by
    rw [summaryLine, String.append_assoc, String.append_assoc, String.append_assoc]
    exact message?_opened _
  have hskip : ∀ s, (skipLine strict label s).message? .output summaryOpening = none := by
    intro s
    cases strict with
    | true => exact message?_of_channel (by simp [skipLine, Line.err])
    | false => simp [Line.message?, skipLine, Line.out, summaryOpening]
  rw [linesOn, List.filterMap_append, filterMap_printLog _ _ (.inl rfl), List.nil_append,
    List.filterMap_cons_some hsummary, List.filterMap_map]
  simp [hskip]

end

end Workspace

/-! ## 4. Dumps -/

section

variable {files : FileTree} {path : Path} {source : String} {indent : Int}

theorem Model.parse_strict_of_nil (h : (Report.ofText source).skipped = []) :
    Model.parse source true = .ok (Report.ofText source).model := by
  simp [Model.parse, h]

theorem Model.parse_strict_of_cons {first : Skipped} {rest : List Skipped}
    (h : (Report.ofText source).skipped = first :: rest) :
    Model.parse source true = .error first := by
  simp [Model.parse, h]

/-- A strict dump of a document without skipped runs succeeds. -/
theorem ending_dump_of_nil (level : LogLevel) (hread : files.readText path = .ok source)
    (hindent : (Json.Layout.ofIndent? (some indent)).isSome = true)
    (h : (Report.ofText source).skipped = []) :
    (Document.dump files level path (some indent) true).ending = .exit 0 := by
  obtain ⟨layout, hlayout⟩ := Option.isSome_iff_exists.mp hindent
  simp only [Document.dump, hread, Document.dumpText, Model.parse_strict_of_nil h, Document.print,
    hlayout]
  rfl

/-- A strict dump of any other document fails with the first of them. -/
theorem dump_of_cons (level : LogLevel) (hread : files.readText path = .ok source)
    {first : Skipped} {rest : List Skipped} (h : (Report.ofText source).skipped = first :: rest) :
    (Document.dump files level path (some indent) true).ending = .exit 1
      ∧ (Document.dump files level path (some indent) true).messages .errors errorOpening
        = [path.text ++ ": " ++ first.complaint] := by
  simp only [Document.dump, hread, Document.dumpText, Model.parse_strict_of_cons h]
  refine ⟨rfl, ?_⟩
  have hfail : (Transcript.fail (path.text ++ ": " ++ first.complaint)).lines
      = [⟨.errors, errorOpening ++ (path.text ++ ": " ++ first.complaint)⟩] := rfl
  rw [Transcript.messages, Transcript.after, List.filterMap_append,
    filterMap_printLog _ _ (.inr ⟨rfl, rfl⟩), List.nil_append, hfail,
    List.filterMap_cons_some (message?_opened _), List.filterMap_nil]

theorem ending_dump_iff (level : LogLevel) (hread : files.readText path = .ok source)
    (hindent : (Json.Layout.ofIndent? (some indent)).isSome = true) :
    (Document.dump files level path (some indent) true).ending = .exit 0
      ↔ (Report.ofText source).skipped = [] := by
  refine ⟨fun hzero => ?_, ending_dump_of_nil level hread hindent⟩
  cases hskipped : (Report.ofText source).skipped with
  | nil => rfl
  | cons first rest =>
    rw [(dump_of_cons level hread hskipped).1] at hzero
    cases hzero

end

/-! ## 5. Both modes -/

namespace Workspace

open Cli

section

variable {files : FileTree} {directory root sources : Path} {config : Config} {text : Path → String}

/-- The check of a workspace whose documents all hold text. -/
theorem Ready.check_eq_of_text (h : Ready files directory root config sources)
    (hlenient : config.strict = false)
    (htext : ∀ p ∈ files.findBelow documentEnding sources, files.readText p = .ok (text p))
    (given : Option LogLevel) (strict : Bool) :
    check files given directory strict
      = concluded (files.findBelow documentEnding sources)
          (findingsOn files (given.getD config.logLevel) strict root
            (files.findBelow documentEnding sources)) := by
  rw [h.check_eq_concluded given strict fun p hp => by simp [htext p hp], hlenient, Bool.or_false]

/-- It says what there is to say of each. -/
theorem Ready.messages_check (h : Ready files directory root config sources)
    (hlenient : config.strict = false)
    (htext : ∀ p ∈ files.findBelow documentEnding sources, files.readText p = .ok (text p))
    (given : Option LogLevel) (strict : Bool) {channel : Channel} {opening : String}
    (hopening : channel = .output → opening = warningOpening ∨ opening = summaryOpening) :
    (check files given directory strict).messages channel opening
      = (files.findBelow documentEnding sources).flatMap fun p =>
          (linesOn (given.getD config.logLevel) strict (labelOf root p) (.ok (text p))).filterMap
            (Line.message? channel opening) := by
  rw [h.check_eq_of_text hlenient htext,
    messages_concluded (fun hnone => by rw [hnone]; rfl) hopening, findingsOn,
    List.filterMap_flatMap]
  exact List.flatMap_congr fun p hp => by rw [htext p hp]

/-- It fails under strict checking, if a run of a document is skipped. -/
theorem Ready.ending_check (h : Ready files directory root config sources)
    (hlenient : config.strict = false)
    (htext : ∀ p ∈ files.findBelow documentEnding sources, files.readText p = .ok (text p))
    (given : Option LogLevel) (strict : Bool) :
    (check files given directory strict).ending
      = .exit (if strict = true ∧ ∃ p ∈ files.findBelow documentEnding sources,
          (Report.ofText (text p)).skipped ≠ [] then 1 else 0) := by
  rw [h.check_eq_of_text hlenient htext, ending_concluded fun hnone => by rw [hnone]; rfl]
  refine congrArg Ending.exit (if_congr ?_ rfl rfl)
  simp only [findingsOn, List.any_eq_true]
  constructor
  · rintro ⟨p, hp, hfail⟩
    rw [htext p hp, failsOn] at hfail
    simp only [Bool.and_eq_true, Bool.not_eq_true', List.isEmpty_eq_false_iff] at hfail
    exact ⟨hfail.1, p, hp, hfail.2⟩
  · rintro ⟨rfl, p, hp, hskipped⟩
    refine ⟨p, hp, ?_⟩
    rw [htext p hp, failsOn]
    simpa using hskipped

/-- **A strict check and a lenient one say the same**, the one as errors and the other as warnings.
The strict one succeeds just if a strict dump of each document does, and such a dump fails with the
first run that the check complains of. -/
theorem check_modes_agree (h : Ready files directory root config sources)
    (hlenient : config.strict = false)
    (htext : ∀ p, IsDocument files sources p → files.readText p = .ok (text p))
    {written : Path → Path}
    (hwritten : ∀ p, IsDocument files sources p → files.readText (written p) = .ok (text p))
    (given : Option LogLevel) {indent : Int}
    (hindent : (Json.Layout.ofIndent? (some indent)).isSome = true) :
    let documents := files.findBelow documentEnding sources
    let skipped := fun p => (Report.ofText (text p)).skipped
    let lenient := Invocation.run files ⟨given, some (.check directory false)⟩
    let strict := Invocation.run files ⟨given, some (.check directory true)⟩
    let dump := fun p => Invocation.run files ⟨given, some (.dump (written p) (some indent) true)⟩
    (∀ p, p ∈ documents ↔ IsDocument files sources p)
      ∧ lenient.ending = .exit 0
      ∧ strict.ending = .exit (if ∀ p ∈ documents, (dump p).ending = .exit 0 then 0 else 1)
      ∧ lenient.messages .output summaryOpening
        = documents.map (fun p => labelOf root p ++ ": " ++ (Report.ofText (text p)).summary)
      ∧ strict.messages .output summaryOpening = lenient.messages .output summaryOpening
      ∧ lenient.messages .output warningOpening
        = documents.flatMap (fun p => (skipped p).map (skipMessage (labelOf root p)))
      ∧ strict.messages .errors errorOpening = lenient.messages .output warningOpening
      ∧ ∀ p ∈ documents, (skipped p = [] → (dump p).ending = .exit 0)
        ∧ ∀ first rest, skipped p = first :: rest →
          Model.parse (text p) true = .error first ∧ (dump p).ending = .exit 1
            ∧ (dump p).messages .errors errorOpening
              = [(written p).text ++ ": " ++ first.complaint] := by
  intro documents skipped lenient strict dump
  have hmem : ∀ p, p ∈ documents ↔ IsDocument files sources p := fun p => FileTree.mem_findBelow
  have hread : ∀ p ∈ documents, files.readText p = .ok (text p) := fun p hp =>
    htext p ((hmem p).mp hp)
  have hclean : ∀ p ∈ documents, (dump p).ending = .exit 0 ↔ skipped p = [] := fun p hp =>
    ending_dump_iff _ (hwritten p ((hmem p).mp hp)) hindent
  have hsummaries : ∀ mode, (check files given directory mode).messages .output summaryOpening
      = documents.map fun p => labelOf root p ++ ": " ++ (Report.ofText (text p)).summary := by
    intro mode
    rw [h.messages_check hlenient hread given mode fun _ => .inr rfl, List.map_eq_flatMap]
    exact List.flatMap_congr fun p _ => summaries_linesOn _ _ _ _
  have hcomplaints : ∀ mode, (check files given directory mode).messages (complaintChannel mode)
      (complaintOpening mode) = documents.flatMap fun p =>
        (skipped p).map (skipMessage (labelOf root p)) := by
    intro mode
    have hopening : complaintChannel mode = .output → complaintOpening mode = warningOpening
        ∨ complaintOpening mode = summaryOpening := by
      cases mode with
      | true => nofun
      | false => exact fun _ => .inl rfl
    rw [h.messages_check hlenient hread given mode hopening]
    exact List.flatMap_congr fun p _ => complaints_linesOn _ _ _ _
  refine ⟨hmem, ?_, ?_, hsummaries false, (hsummaries true).trans (hsummaries false).symm,
    hcomplaints false, (hcomplaints true).trans (hcomplaints false).symm, ?_⟩
  · exact (h.ending_check hlenient hread given false).trans (by simp)
  · refine (h.ending_check hlenient hread given true).trans (congrArg Ending.exit ?_)
    have hall : (∀ p ∈ documents, (dump p).ending = .exit 0) ↔ ∀ p ∈ documents, skipped p = [] :=
      forall₂_congr hclean
    rw [if_congr hall rfl rfl]
    by_cases hnone : ∀ p ∈ documents, skipped p = []
    · rw [if_pos hnone, if_neg]
      rintro ⟨-, p, hp, hskipped⟩
      exact hskipped (hnone p hp)
    · rw [if_neg hnone, if_pos]
      push Not at hnone
      exact ⟨rfl, hnone⟩
  · intro p hp
    have hsource := hwritten p ((hmem p).mp hp)
    refine ⟨(hclean p hp).mpr, fun first rest hcons => ?_⟩
    exact ⟨Model.parse_strict_of_cons hcons, dump_of_cons _ hsource hcons⟩

end

/-- A configured workspace with a document that is read completely and one that ends too early. -/
def sampleDocuments : FileTree :=
  ⟨[(["work", ".cmlmodel.yaml"], .file "strict: false\n".toUTF8),
    (["work", "a.cml"], .file "UseCase A \x7b \x7d".toUTF8),
    (["work", "b.cml"], .file "UseCase B \x7b".toUTF8)], ["work"]⟩

theorem findBelow_sampleDocuments :
    sampleDocuments.findBelow documentEnding ⟨.slash, ["work"]⟩
      = [⟨.slash, ["work", "a.cml"]⟩, ⟨.slash, ["work", "b.cml"]⟩] :=
  (FileTree.findBelow_of_listed (l := ["work"]) (by decide +kernel) (by decide +kernel)).trans
    (by decide +kernel)

/-- The text of each of these documents. -/
def sampleText (p : Path) : String :=
  if p.names.getLast? = some "a.cml" then "UseCase A \x7b \x7d" else "UseCase B \x7b"

/-- The path of each of these documents, as seen from the workspace. -/
def sampleName (p : Path) : Path := ⟨.current, p.names.drop 1⟩

/-- Only the second of them is warned of, and a strict check and its strict dump fail. -/
theorem check_modes_agree_sample :
    Ready sampleDocuments ⟨.current, []⟩ ⟨.slash, ["work"]⟩ {} ⟨.slash, ["work"]⟩
      ∧ (∀ p, IsDocument sampleDocuments ⟨.slash, ["work"]⟩ p →
        sampleDocuments.readText p = .ok (sampleText p)
          ∧ sampleDocuments.readText (sampleName p) = .ok (sampleText p))
      ∧ (Invocation.run sampleDocuments ⟨none, some (.check ⟨.current, []⟩ true)⟩).ending = .exit 1
      ∧ (Invocation.run sampleDocuments ⟨none, some (.check ⟨.current, []⟩ true)⟩).messages
          .errors errorOpening = ["b.cml:1: unterminated block: UseCase B \x7b"]
      ∧ (Invocation.run sampleDocuments
          ⟨none, some (.dump ⟨.current, ["b.cml"]⟩ (some 2) true)⟩).messages .errors errorOpening
        = ["b.cml: Line 1, column 1: unterminated block"] := by
  have hready : Ready sampleDocuments ⟨.current, []⟩ ⟨.slash, ["work"]⟩ {} ⟨.slash, ["work"]⟩ :=
    ⟨by decide +kernel, by decide +kernel, by decide +kernel, by decide +kernel⟩
  have hread : ∀ p, IsDocument sampleDocuments ⟨.slash, ["work"]⟩ p →
      sampleDocuments.readText p = .ok (sampleText p)
        ∧ sampleDocuments.readText (sampleName p) = .ok (sampleText p) := by
    have hboth : ∀ p ∈ [⟨.slash, ["work", "a.cml"]⟩, ⟨.slash, ["work", "b.cml"]⟩],
        sampleDocuments.readText p = .ok (sampleText p)
          ∧ sampleDocuments.readText (sampleName p) = .ok (sampleText p) := by
      decide +kernel
    intro p hp
    have hfound := FileTree.mem_findBelow.mpr hp
    rw [findBelow_sampleDocuments] at hfound
    exact hboth p hfound
  obtain ⟨-, -, hending, -, -, hwarnings, herrors, hdumps⟩ := check_modes_agree hready rfl
    (fun p hp => (hread p hp).1) (fun p hp => (hread p hp).2) none
    (show (Json.Layout.ofIndent? (some 2)).isSome = true by decide)
  rw [findBelow_sampleDocuments] at hending hwarnings hdumps
  refine ⟨hready, hread, ?_, ?_, ?_⟩
  · rw [hending]
    decide +kernel
  · rw [herrors, hwarnings]
    decide +kernel
  · have hfirst : (Report.ofText "UseCase B \x7b").skipped
        = [⟨.unterminatedBlock, "UseCase B \x7b", 1, 1⟩] := by
      decide +kernel
    exact ((hdumps ⟨.slash, ["work", "b.cml"]⟩ (by decide)).2 _ _ hfirst).2.2.trans
      (by decide +kernel)

end Workspace

end ContextAtlas

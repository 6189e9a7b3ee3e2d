import DocMarkup.CommandLine.Run
import DocMarkup.Proofs.Files.Naming
import DocMarkup.Proofs.Files.Writing

namespace DocMarkup

namespace CommandLine

def outputPath (format : OutputFormat) (output path : FilePath) : FilePath :=
  FilePath.join output (outputName path format)

def outputText (parser : Parser) (format : OutputFormat) (path : FilePath) (text : Text) : Text :=
  (⟨some path, parser.parse text⟩ : Document).render format

/-- Both paths end in names, and the names have different stems. -/
def StemsDiffer (path other : FilePath) : Prop :=
  ∃ stem stem', FilePath.stem? path = some stem ∧ FilePath.stem? other = some stem' ∧ stem ≠ stem'

theorem StemsDiffer.symm {path other : FilePath} (differ : StemsDiffer path other) :
    StemsDiffer other path := by
  obtain ⟨stem, stem', stemmed, stemmed', differ⟩ := differ
  exact ⟨stem', stem, stemmed', stemmed, differ.symm⟩

section Places

variable {path other : FilePath}

theorem extension_plain (format : OutputFormat) :
    '.' ∉ format.extension ∧ '/' ∉ format.extension ∧ 2 < format.extension.length := by
  cases format <;> decide

theorem getLast?_outputPath (base : List Text) (format : OutputFormat) (output : FilePath)
    {stem : Text} (stemmed : FilePath.stem? path = some stem) :
    (FilePath.namesFrom base (outputPath format output path)).getLast? =
      some (stem ++ "." ++ format.extension) := by
  obtain ⟨-, unbroken, long⟩ := extension_plain format
  obtain ⟨-, -, -, -, whole⟩ := FilePath.stem?_eq_some stemmed
  have named : outputName path format = stem ++ "." ++ format.extension := by
    rw [outputName, stemmed, Option.getD_some]
  have unbroken : '/' ∉ stem ++ "." ++ format.extension := by
    simp only [List.mem_append, not_or]
    exact ⟨⟨whole, by decide⟩, unbroken⟩
  -- The extension alone makes the name too long to be one that stands for a directory.
  have part : FilePath.partOf? (stem ++ "." ++ format.extension) =
      some (.name (stem ++ "." ++ format.extension)) := by
    have apart (special : Text) (short : special.length ≤ 2) :
        stem ++ "." ++ format.extension ≠ special := by
      rintro rfl
      simp only [List.length_append] at short
      omega
    rw [FilePath.partOf?, if_neg (not_or.mpr ⟨apart "" (by decide), apart "." (by decide)⟩),
      if_neg (apart ".." (by decide))]
  obtain ⟨front, ends⟩ := FilePath.segments_join output unbroken
  rw [outputPath, named]
  exact FilePath.getLast?_namesFrom base (FilePath.getLast?_parts ends part)

theorem StemsDiffer.outputs (differ : StemsDiffer path other) (base : List Text)
    (format : OutputFormat) (output : FilePath) :
    FilePath.namesFrom base (outputPath format output path) ≠
      FilePath.namesFrom base (outputPath format output other) := by
  obtain ⟨stem, stem', stemmed, stemmed', differ⟩ := differ
  intro same
  have names := getLast?_outputPath base format output stemmed
  rw [same, getLast?_outputPath base format output stemmed'] at names
  exact differ (List.append_cancel_right (List.append_cancel_right (Option.some.inj names))).symm

theorem StemsDiffer.input (differ : StemsDiffer path other) (base : List Text)
    (format : OutputFormat) (output : FilePath) :
    FilePath.namesFrom base (outputPath format output path) ≠ FilePath.namesFrom base other := by
  obtain ⟨stem, stem', stemmed, stemmed', differ⟩ := differ
  obtain ⟨name, ends, rfl, -, -⟩ := FilePath.stem?_eq_some stemmed'
  obtain ⟨-, -, -, nonempty, -⟩ := FilePath.stem?_eq_some stemmed
  intro same
  have names := getLast?_outputPath base format output stemmed
  rw [same, FilePath.getLast?_namesFrom base ends] at names
  obtain rfl := Option.some.inj names
  rw [FilePath.splitName_append nonempty (extension_plain format).1] at differ
  exact differ rfl

end Places

section Files

variable {parser : Parser} {format : OutputFormat} {output : FilePath}

/-- What taking an input does: the input is skipped, or its output is written. -/
inductive Takes (parser : Parser) (format : OutputFormat) (output : FilePath) (tree : FileTree)
    (path : FilePath) : FileTree → Prop
  | skipped {cause : FileError} (unread : tree.read path = .error cause) :
    Takes parser format output tree path tree
  | written {text : Text} {next : FileTree} (read : tree.read path = .ok text)
    (write : tree.write (outputPath format output path)
      (encodeText (outputText parser format path text)) = .ok next) :
    Takes parser format output tree path next

theorem renderFiles_cons {tree : FileTree} {warnings : List Text} {path : FilePath}
    {rest : List FilePath}
    (done : (renderFiles parser format output tree warnings (path :: rest)).exitCode = 0) :
    ∃ next warnings', renderFiles parser format output tree warnings (path :: rest) =
        renderFiles parser format output next warnings' rest ∧
      (renderFiles parser format output tree [] [path]).tree = next ∧
      Takes parser format output tree path next := by
  rw [renderFiles] at done ⊢
  cases read : tree.read path with
  | error cause => exact ⟨tree, _, rfl, by rw [renderFiles, read]; rfl, .skipped read⟩
  | ok text =>
    simp only [read] at done ⊢
    split at done
    · cases done
    · rename_i next write
      refine ⟨next, warnings, rfl, ?_, .written read write⟩
      simp only [renderFiles, read, write]

namespace Takes

variable {tree next : FileTree} {path : FilePath}

theorem grows (takes : Takes parser format output tree path next) : FileTree.Grows tree next := by
  cases takes with
  | skipped => exact (FileTree.Keeps.refl tree).grows
  | written _ write => exact (FileTree.node?_of_write write).1

theorem own (takes : Takes parser format output tree path next) {text : Text}
    (read : tree.read path = .ok text) :
    next.read (outputPath format output path) = .ok (outputText parser format path text) := by
  cases takes with
  | skipped unread =>
    rw [read] at unread
    cases unread
  | written read' write =>
    rw [read] at read'
    cases read'
    exact (FileTree.read_of_write write).2.1

theorem others (takes : Takes parser format output tree path next) {place : FilePath} {held : Text}
    (read : tree.read place = .ok held)
    (apart : FilePath.namesFrom tree.workingDirectory (outputPath format output path) ≠
      FilePath.namesFrom tree.workingDirectory place) : next.read place = .ok held := by
  cases takes with
  | skipped => exact read
  | written _ write => exact (FileTree.read_of_write write).2.2 place held read apart

theorem readable (takes : Takes parser format output tree path next) {place : FilePath} {held : Text}
    (read : tree.read place = .ok held) : ∃ held', next.read place = .ok held' := by
  by_cases apart : FilePath.namesFrom tree.workingDirectory (outputPath format output path) =
      FilePath.namesFrom tree.workingDirectory place
  · cases takes with
    | skipped => exact ⟨held, read⟩
    | written _ write =>
      obtain ⟨grows, -, nodes⟩ := FileTree.node?_of_write write
      obtain ⟨location, content, leads, -, -⟩ := FileTree.read_eq_ok_iff.mp read
      have here := nodes location
      rw [apart, ← FileTree.locate_eq_namesFrom leads, if_pos rfl] at here
      exact ⟨_, FileTree.read_eq_ok_iff.mpr ⟨location, _, grows.locate leads, here,
        decodeText?_encodeText _⟩⟩
  · exact ⟨held, takes.others read apart⟩

end Takes

theorem read_renderFiles {tree : FileTree} {warnings : List Text} {files : List FilePath}
    (done : (renderFiles parser format output tree warnings files).exitCode = 0)
    {place : FilePath} {held : Text} (read : tree.read place = .ok held)
    (apart : ∀ other ∈ files,
      FilePath.namesFrom tree.workingDirectory (outputPath format output other) ≠
        FilePath.namesFrom tree.workingDirectory place) :
    (renderFiles parser format output tree warnings files).tree.read place = .ok held := by
  induction files generalizing tree warnings with
  | nil => exact read
  | cons path rest ih =>
    obtain ⟨next, warnings', same, -, takes⟩ := renderFiles_cons done
    obtain ⟨first, behind⟩ := List.forall_mem_cons.mp apart
    rw [same] at done ⊢
    exact ih done (takes.others read first) (by rwa [takes.grows.workingDirectory])

/-- The output of an input is there at the end if no output before it was put at the input and no
output behind it is put at the same place. -/
theorem read_outputPath {tree : FileTree} {warnings : List Text} {front back : List FilePath}
    {path : FilePath}
    (done : (renderFiles parser format output tree warnings (front ++ path :: back)).exitCode = 0)
    {text : Text} (read : tree.read path = .ok text)
    (unread : ∀ other ∈ front,
      FilePath.namesFrom tree.workingDirectory (outputPath format output other) ≠
        FilePath.namesFrom tree.workingDirectory path)
    (last : ∀ other ∈ back,
      FilePath.namesFrom tree.workingDirectory (outputPath format output other) ≠
        FilePath.namesFrom tree.workingDirectory (outputPath format output path)) :
    (renderFiles parser format output tree warnings (front ++ path :: back)).tree.read
        (outputPath format output path) = .ok (outputText parser format path text) := by
  induction front generalizing tree warnings with
  | nil =>
    rw [List.nil_append] at done ⊢
    obtain ⟨next, warnings', same, -, takes⟩ := renderFiles_cons done
    rw [same] at done ⊢
    exact read_renderFiles done (takes.own read) (by rwa [takes.grows.workingDirectory])
  | cons first front ih =>
    rw [List.cons_append] at done ⊢
    obtain ⟨next, warnings', same, -, takes⟩ := renderFiles_cons done
    obtain ⟨apart, unread⟩ := List.forall_mem_cons.mp unread
    rw [same] at done ⊢
    exact ih done (takes.others read apart) (by rwa [takes.grows.workingDirectory])
      (by rwa [takes.grows.workingDirectory])

/-- The inputs that can be read when their turn comes, with what they hold then. -/
def taken (parser : Parser) (format : OutputFormat) (output : FilePath) (tree : FileTree) :
    List FilePath → List (FilePath × Text)
  | [] => []
  | path :: rest =>
    let next := (renderFiles parser format output tree [] [path]).tree
    ((tree.read path).toOption.map (path, ·)).toList ++ taken parser format output next rest

def lastPut (format : OutputFormat) (output : FilePath) (base : List Text) (place : Location)
    (inputs : List (FilePath × Text)) : Option (FilePath × Text) :=
  (inputs.filter fun input =>
    FilePath.namesFrom base (outputPath format output input.1) = place).getLast?

theorem lastPut_append (base : List Text) (place : Location) (front back : List (FilePath × Text)) :
    lastPut format output base place (front ++ back) =
      (lastPut format output base place back).or (lastPut format output base place front) := by
  rw [lastPut, List.filter_append, List.getLast?_append]
  rfl

theorem exists_lastPut (format : OutputFormat) (output : FilePath) (base : List Text)
    {inputs : List (FilePath × Text)} {input : FilePath × Text} (member : input ∈ inputs) :
    ∃ last, lastPut format output base
      (FilePath.namesFrom base (outputPath format output input.1)) inputs = some last := by
  refine Option.isSome_iff_exists.mp (List.getLast?_isSome.mpr ?_)
  exact List.ne_nil_of_mem (List.mem_filter.mpr ⟨member, decide_eq_true rfl⟩)

theorem Takes.node?_eq {tree next : FileTree} {path : FilePath}
    (takes : Takes parser format output tree path next) (place : Location) :
    next.node? place =
      ((lastPut format output tree.workingDirectory place
        ((tree.read path).toOption.map (path, ·)).toList).map fun input =>
          .file (encodeText (outputText parser format input.1 input.2))).or (tree.node? place) := by
  cases takes with
  | skipped unread =>
    rw [unread]
    rfl
  | written read write =>
    rw [(FileTree.node?_of_write write).2.2, read]
    by_cases here : FilePath.namesFrom tree.workingDirectory (outputPath format output path) = place
    · simp [lastPut, Except.toOption, here]
    · simp [lastPut, Except.toOption, here]

/-- A run leaves at every place what the last input that is put there leaves, or what was there. -/
theorem node?_renderFiles {tree : FileTree} {warnings : List Text} {files : List FilePath}
    (done : (renderFiles parser format output tree warnings files).exitCode = 0)
    (place : Location) :
    (renderFiles parser format output tree warnings files).tree.node? place =
      ((lastPut format output tree.workingDirectory place
        (taken parser format output tree files)).map fun input =>
          .file (encodeText (outputText parser format input.1 input.2))).or (tree.node? place) := by
  induction files generalizing tree warnings with
  | nil => rfl
  | cons path rest ih =>
    obtain ⟨next, warnings', same, step, takes⟩ := renderFiles_cons done
    rw [same] at done ⊢
    rw [ih done, takes.grows.workingDirectory, takes.node?_eq, taken, step, lastPut_append,
      Option.map_or, Option.or_assoc]

theorem grows_renderFiles {tree : FileTree} {warnings : List Text} {files : List FilePath}
    (done : (renderFiles parser format output tree warnings files).exitCode = 0) :
    FileTree.Grows tree (renderFiles parser format output tree warnings files).tree := by
  induction files generalizing tree warnings with
  | nil => exact (FileTree.Keeps.refl tree).grows
  | cons path rest ih =>
    obtain ⟨next, warnings', same, -, takes⟩ := renderFiles_cons done
    rw [same] at done ⊢
    exact takes.grows.trans (ih done)

theorem exists_taken {tree : FileTree} {warnings : List Text} {files : List FilePath}
    (done : (renderFiles parser format output tree warnings files).exitCode = 0)
    {path : FilePath} (asked : path ∈ files) {text : Text} (read : tree.read path = .ok text) :
    (∃ held, (path, held) ∈ taken parser format output tree files) ∧
      (renderFiles parser format output tree warnings files).tree.locate
        (outputPath format output path) =
          .ok (FilePath.namesFrom tree.workingDirectory (outputPath format output path)) := by
  induction files generalizing tree warnings text with
  | nil => cases asked
  | cons first rest ih =>
    obtain ⟨next, warnings', same, step, takes⟩ := renderFiles_cons done
    rw [same] at done ⊢
    rw [taken, step]
    by_cases here : path = first
    · subst here
      refine ⟨⟨text, List.mem_append_left _ (by rw [read]; exact List.mem_cons_self)⟩, ?_⟩
      cases takes with
      | skipped unread =>
        rw [read] at unread
        cases unread
      | written _ write =>
        exact (grows_renderFiles done).locate (FileTree.node?_of_write write).2.1
    · obtain ⟨held, still⟩ := takes.readable read
      obtain ⟨⟨held', member⟩, leads⟩ := ih done (List.mem_of_ne_of_mem here asked) still
      rw [takes.grows.workingDirectory] at leads
      exact ⟨⟨held', List.mem_append_right _ member⟩, leads⟩

theorem read_lastPut {tree : FileTree} {warnings : List Text} {files : List FilePath}
    (done : (renderFiles parser format output tree warnings files).exitCode = 0)
    {path : FilePath} (asked : path ∈ files) {text : Text} (read : tree.read path = .ok text) :
    ∃ last, lastPut format output tree.workingDirectory
        (FilePath.namesFrom tree.workingDirectory (outputPath format output path))
        (taken parser format output tree files) = some last ∧
      (renderFiles parser format output tree warnings files).tree.read
        (outputPath format output path) = .ok (outputText parser format last.1 last.2) := by
  obtain ⟨⟨held, member⟩, leads⟩ := exists_taken done asked read
  obtain ⟨last, put⟩ := exists_lastPut format output tree.workingDirectory member
  refine ⟨last, put, FileTree.read_eq_ok_iff.mpr ⟨_, _, leads, ?_, decodeText?_encodeText _⟩⟩
  rw [node?_renderFiles done, put]
  rfl

end Files

/-- What a run has to write out: the inputs that were found, where they go, and what they are
written with. -/
structure Job where
  parser : Parser
  format : OutputFormat
  output : FilePath
  made : FileTree
  warnings : List Text
  found : List FilePath

namespace Job

def files (job : Job) : List FilePath := FilePath.sortUnique job.found

def target (job : Job) (path : FilePath) : FilePath := outputPath job.format job.output path

def content (job : Job) (path : FilePath) (text : Text) : Text :=
  outputText job.parser job.format path text

/-- The last of the inputs whose outputs are put where that of `path` is, and what it holds when its
turn comes. -/
def lastAt (job : Job) (path : FilePath) : Option (FilePath × Text) :=
  let place := FilePath.namesFrom job.made.workingDirectory (job.target path)
  lastPut job.format job.output job.made.workingDirectory place
    (taken job.parser job.format job.output job.made job.files)

def run (job : Job) : Outcome :=
  renderFiles job.parser job.format job.output job.made job.warnings job.files

end Job

def RenderArguments.job? (tree : FileTree) (config : Config) (arguments : RenderArguments) :
    Option Job := do
  let parser ← (Parser.ofConfig (arguments.configure config.docstring)).toOption
  let format ← (OutputFormat.ofName arguments.format).toOption
  let output ← arguments.output
  let made ← (tree.createDirectories output).toOption
  let found ← (collect made arguments.files).2.toOption
  return ⟨parser, format, output, made, (collect made arguments.files).1, found⟩

/-- The inputs that a run writes out, if it is asked to write any and gets that far. -/
def job? (tree : FileTree) (words : List Text) : Option Job :=
  match requestOf words with
  | .ok (.run path (.render arguments)) =>
    if arguments.files.isEmpty then none
    else (Config.discover tree path).toOption.bind fun config => arguments.job? tree config
  | _ => none

section Runs

variable (tree : FileTree) (input : ByteArray)

theorem render_eq_run {config : Config} {arguments : RenderArguments}
    (given : arguments.files ≠ []) :
    (∃ job, arguments.job? tree config = some job ∧ FileTree.Keeps tree job.made ∧
      render tree input config arguments = job.run) ∨
    (arguments.job? tree config = none ∧ (render tree input config arguments).exitCode = 1) := by
  have asked : arguments.files.isEmpty = false := by simpa using given
  unfold RenderArguments.job? render
  cases Parser.ofConfig (arguments.configure config.docstring) with
  | error e => exact .inr ⟨rfl, rfl⟩
  | ok parser =>
    cases OutputFormat.ofName arguments.format with
    | error e => exact .inr ⟨rfl, rfl⟩
    | ok format =>
      simp only [asked, Bool.false_eq_true, ↓reduceIte, renderInto]
      cases arguments.output with
      | none => exact .inr ⟨rfl, rfl⟩
      | some output =>
        cases create : tree.createDirectories output with
        | error e => exact .inr ⟨by simp [create, Except.toOption], by simp [create, Outcome.fail]⟩
        | ok made =>
          cases collected : collect made arguments.files with
          | mk warnings found =>
            cases found with
            | error failure =>
              exact .inr ⟨by simp [create, collected, Except.toOption],
                by simp [create, collected, Outcome.fail]⟩
            | ok found =>
              refine .inl ⟨⟨parser, format, output, made, warnings, found⟩, ?_,
                FileTree.keeps_createDirectories create, ?_⟩
              · simp [create, collected, Except.toOption]
              · simp only [create, collected]
                rfl

/-- A run that is asked to write inputs out does its job or fails. -/
theorem run_eq_run {words : List Text} {configPath : Option FilePath} {arguments : RenderArguments}
    (request : requestOf words = .ok (.run configPath (.render arguments)))
    (given : arguments.files ≠ []) :
    (∃ job, job? tree words = some job ∧ FileTree.Keeps tree job.made ∧
      run tree input words = job.run) ∨
    (job? tree words = none ∧ (run tree input words).exitCode = 1) := by
  have asked : arguments.files.isEmpty = false := by simpa using given
  simp only [job?, run, request, asked, Bool.false_eq_true, ↓reduceIte]
  cases Config.discover tree configPath with
  | error e => exact .inr ⟨rfl, rfl⟩
  | ok config => exact render_eq_run tree input given

/-- A run that succeeds leaves the output of an input that could be read at its start if and only if
the last input that is put at the same place, read in its turn, has that very output. So an input
that no other has the stem of keeps its output, and of those with one stem the last one's output is
what all of them are left with, if it can be read and is not written over before. -/
theorem run_keeps_outputs {words : List Text} {configPath : Option FilePath}
    {arguments : RenderArguments}
    (request : requestOf words = .ok (.run configPath (.render arguments)))
    (given : arguments.files ≠ []) (done : (run tree input words).exitCode = 0) :
    ∃ job, job? tree words = some job ∧
      ∀ front path back text, job.files = front ++ path :: back → tree.read path = .ok text →
        ((∀ other ∈ front ++ back, StemsDiffer path other) →
          (run tree input words).tree.read (job.target path) = .ok (job.content path text)) ∧
        ((∀ other ∈ front, FilePath.namesFrom tree.workingDirectory (job.target other) ≠
            FilePath.namesFrom tree.workingDirectory path) →
          (∀ other ∈ back, StemsDiffer path other) →
          ∀ other held, job.target other = job.target path →
            ((run tree input words).tree.read (job.target other) = .ok (job.content other held) ↔
              job.content other held = job.content path text)) ∧
        ((run tree input words).tree.read (job.target path) = .ok (job.content path text) ↔
          ∃ last held, job.lastAt path = some (last, held) ∧
            job.content last held = job.content path text) := by
  rcases run_eq_run tree input request given with
    ⟨job, found, keeps, ran⟩ | ⟨-, failed⟩
  case inr => simp [failed] at done
  rw [ran] at done ⊢
  refine ⟨job, found, ?_⟩
  intro front path back text files read
  rw [Job.run, files] at done ⊢
  have read := keeps.read read
  refine ⟨fun differ => ?_, fun unread last other held same => ?_, ?_⟩
  · obtain ⟨before, behind⟩ := List.forall_mem_append.mp differ
    exact read_outputPath done read (fun other mem => (before other mem).symm.input _ _ _)
      (fun other mem => (behind other mem).symm.outputs _ _ _)
  · have kept := read_outputPath done read (by rwa [keeps.workingDirectory])
      (fun other mem => (last other mem).symm.outputs _ _ _)
    rw [same]
    exact ⟨fun left => Except.ok.inj (left.symm.trans kept), fun equal => by rw [equal]; exact kept⟩
  · obtain ⟨⟨last, held⟩, put, left⟩ := read_lastPut done (by simp) read
    rw [← files] at put
    constructor
    · intro own
      exact ⟨last, held, put, Except.ok.inj (left.symm.trans own)⟩
    · rintro ⟨last', held', put', equal⟩
      cases put.symm.trans put'
      exact left.trans (congrArg Except.ok equal)

end Runs

def sampleInputs : FileTree where
  nodes := [
    (["a"], .directory),
    (["a", "x.txt"], .file (encodeText "A.")),
    (["b"], .directory),
    (["b", "x.txt"], .file (encodeText "B.")),
    (["b", "y.txt"], .file (encodeText "C."))]
  workingDirectory := []

def sampleWords : List Text := ["render", "-o", "out", "a/x.txt", "b/x.txt", "b/y.txt"]

def sampleArguments : RenderArguments where
  files := ["a/x.txt", "b/x.txt", "b/y.txt"]
  output := some "out"
  format := "rst"
  noCustomSections := false
  legacyRoles := false

theorem requestOf_sampleWords :
    requestOf sampleWords = .ok (.run none (.render sampleArguments)) := rfl

def sampleJob : Job := (job? sampleInputs sampleWords).get (by decide +kernel)

theorem job?_sampleWords : job? sampleInputs sampleWords = some sampleJob :=
  (Option.some_get _).symm

theorem files_sampleJob : sampleJob.files = sampleArguments.files := by
  rw [Job.files, FilePath.sortUnique, List.mergeSort_of_pairwise (by decide +kernel)]
  decide +kernel

theorem run_sampleInputs (input : ByteArray) : run sampleInputs input sampleWords = sampleJob.run := by
  rcases run_eq_run sampleInputs input requestOf_sampleWords nofun with
    ⟨job, found, -, ran⟩ | ⟨missing, -⟩
  · rw [job?_sampleWords] at found
    cases found
    exact ran
  · rw [job?_sampleWords] at missing
    cases missing

theorem exitCode_sampleJob : sampleJob.run.exitCode = 0 := by
  rw [Job.run, files_sampleJob]
  decide +kernel

theorem read_sampleInputs :
    sampleInputs.read "a/x.txt" = .ok "A." ∧ sampleInputs.read "b/x.txt" = .ok "B." ∧
      sampleInputs.read "b/y.txt" = .ok "C." := by
  simp only [FileTree.read_eq_ok_iff]
  exact ⟨⟨["a", "x.txt"], _, rfl, rfl, decodeText?_encodeText _⟩,
    ⟨["b", "x.txt"], _, rfl, rfl, decodeText?_encodeText _⟩,
    ⟨["b", "y.txt"], _, rfl, rfl, decodeText?_encodeText _⟩⟩

theorem content_sampleJob :
    sampleJob.content "a/x.txt" "A." = "A.\n" ∧ sampleJob.content "b/x.txt" "B." = "B.\n" ∧
      sampleJob.content "b/y.txt" "C." = "C.\n" := by
  decide +kernel

theorem target_sampleJob :
    sampleJob.target "a/x.txt" = "out/x.rst" ∧ sampleJob.target "b/x.txt" = "out/x.rst" ∧
      sampleJob.target "b/y.txt" = "out/y.rst" := by
  decide +kernel

theorem stemsDiffer_sampleInputs (path : FilePath)
    (mem : path ∈ [("a/x.txt" : Text), "b/x.txt"]) : StemsDiffer "b/y.txt" path := by
  refine ⟨"y", "x", by decide, ?_, by decide⟩
  revert path
  decide

theorem run_keeps_sampleOutputs :
    (run sampleInputs .empty sampleWords).tree.read "out/y.rst" = .ok "C.\n" ∧
      (run sampleInputs .empty sampleWords).tree.read "out/x.rst" ≠ .ok "A.\n" := by
  obtain ⟨job, found, kept⟩ := run_keeps_outputs sampleInputs .empty
    requestOf_sampleWords nofun (by rw [run_sampleInputs]; exact exitCode_sampleJob)
  rw [job?_sampleWords] at found
  cases found
  obtain ⟨readFirst, readSecond, readLast⟩ := read_sampleInputs
  obtain ⟨targetFirst, targetSecond, targetLast⟩ := target_sampleJob
  obtain ⟨contentFirst, contentSecond, contentLast⟩ := content_sampleJob
  constructor
  · have own := (kept ["a/x.txt", "b/x.txt"] "b/y.txt" [] "C." files_sampleJob readLast).1
      stemsDiffer_sampleInputs
    rwa [targetLast, contentLast] at own
  · have unread : ∀ other ∈ [("a/x.txt" : Text)],
        FilePath.namesFrom [] (sampleJob.target other) ≠ FilePath.namesFrom [] "b/x.txt" := by
      decide +kernel
    have last : ∀ other ∈ [("b/y.txt" : Text)], StemsDiffer "b/x.txt" other := by
      intro other mem
      obtain rfl := List.mem_singleton.mp mem
      exact (stemsDiffer_sampleInputs _ (by decide)).symm
    have lost := (kept ["a/x.txt"] "b/x.txt" ["b/y.txt"] "B." files_sampleJob readSecond).2.1
      unread last "a/x.txt" "A." (by rw [targetFirst, targetSecond])
    rw [targetFirst, contentFirst, contentSecond] at lost
    rw [ne_eq, lost]
    decide

/-- Not every input of a run that succeeds is left its output. -/
theorem not_forall_keeps_outputs :
    ¬ ∀ (tree : FileTree) (input : ByteArray) (words : List Text) (configPath : Option FilePath)
      (arguments : RenderArguments), requestOf words = .ok (.run configPath (.render arguments)) →
      arguments.files ≠ [] → (run tree input words).exitCode = 0 →
      ∀ job, job? tree words = some job → ∀ path ∈ job.files, ∀ text, tree.read path = .ok text →
        (run tree input words).tree.read (job.target path) = .ok (job.content path text) := by
  intro keeps
  have own := keeps sampleInputs .empty sampleWords none sampleArguments requestOf_sampleWords nofun
    (by rw [run_sampleInputs]; exact exitCode_sampleJob) sampleJob job?_sampleWords "a/x.txt"
    (by rw [files_sampleJob]; decide) "A." read_sampleInputs.1
  have left : ((run sampleInputs .empty sampleWords).tree.read "out/x.rst").toOption =
      some ("B.\n" : Text) := by
    rw [run_sampleInputs, Job.run, files_sampleJob]
    decide +kernel
  rw [target_sampleJob.1, content_sampleJob.1] at own
  rw [own] at left
  exact absurd left (by decide)

end CommandLine

end DocMarkup

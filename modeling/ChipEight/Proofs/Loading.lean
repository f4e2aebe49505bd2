import ChipEight.Proofs.Images
import ChipEight.Proofs.InstanceRequests

/-!
# Loading

A machine and an instance load an image that is handed over or that a named file holds. Main
statement: each of the four ways fails exactly if there is no image or the image does not fit, says
which, and has then changed nothing; if none of this is wrong, the machine's memory is spliced and
nothing else is touched.
-/
namespace ChipEight

/-- Whether the system refused to read. A name that has no bytes or holds a NUL is turned down
before the system sees it. -/
def FileError.isSystemError : FileError → Bool
  | .unusableName | .unencodable _ => false
  | .missing _ | .notDirectory _ | .isDirectory _ | .nameTooLong _ => true

namespace FileName

/-- Every surrogate in the name stands for a byte. -/
def Encodable (name : FileName) : Prop :=
  ∀ offset, .surrogate offset ∈ name.points → 0x480 ≤ offset.val ∧ offset.val < 0x500

def HoldsNul (name : FileName) : Prop := .char (Char.ofNat 0) ∈ name.points

/-- The system can be asked for a file of this name. -/
def Usable (name : FileName) : Prop := name.Encodable ∧ ¬name.HoldsNul

theorem encodePoints_eq_ok_iff (points : List NamePoint) (start : Nat) :
    (∃ bytes, encodePoints start points = .ok bytes) ↔ Encodable ⟨points⟩ := by
  induction points generalizing start with
  | nil => exact iff_of_true ⟨[], rfl⟩ (by simp [Encodable])
  | cons point later ih =>
    have rest : (∃ bytes, encodePoints start (point :: later) = .ok bytes) ↔
        point.bytes?.isSome = true ∧ ∃ bytes, encodePoints (start + 1) later = .ok bytes := by
      rw [encodePoints]
      cases point.bytes? with
      | none => simp
      | some bytes =>
        cases encodePoints (start + 1) later <;> simp [bind, Except.bind, pure, Except.pure]
    rw [rest, ih]
    cases point with
    | char c => simp [NamePoint.bytes?, Encodable]
    | surrogate offset => simp [NamePoint.bytes?, Encodable]

theorem encode_eq_ok_iff (name : FileName) : (∃ bytes, name.encode = .ok bytes) ↔ name.Encodable :=
  encodePoints_eq_ok_iff name.points 0

end FileName

/-- Which names an error is for. -/
structure FileError.Blames (error : FileError) (name : FileName) : Prop where
  system : error.isSystemError = true ↔ name.Usable
  nul : error = .unusableName ↔ name.Encodable ∧ name.HoldsNul
  surrogate : (∃ place, error = .unencodable place) ↔ ¬name.Encodable

theorem FileError.blames_of_isSystemError {error : FileError} {name : FileName}
    (system : error.isSystemError = true) (usable : name.Usable) : error.Blames name where
  system := iff_of_true system usable
  nul := by
    refine iff_of_false ?_ (fun held => usable.2 held.2)
    rintro rfl
    cases system
  surrogate := by
    refine iff_of_false ?_ (not_not.mpr usable.1)
    rintro ⟨place, rfl⟩
    cases system

namespace Directory

variable {directory : Directory} {name : FileName} {error : FileError}

/-- A name that passes the check is usable, and else the error says what is wrong with it. -/
theorem checkName_cases (name : FileName) :
    (∃ bytes, checkName name = .ok bytes ∧ name.Usable) ∨
    ∃ error, checkName name = .error error ∧ error.Blames name := by
  have encodable := name.encode_eq_ok_iff
  unfold checkName
  -- The bytes come first, so that a name with both faults is blamed for its surrogate.
  cases encoded : name.encode with
  | error place =>
    have lost : ¬name.Encodable := by simp [← encodable, encoded]
    refine .inr ⟨.unencodable place, rfl, ?_⟩
    constructor <;> simp [FileError.isSystemError, FileName.Usable, lost]
  | ok bytes =>
    have kept : name.Encodable := encodable.mp ⟨bytes, encoded⟩
    by_cases nul : name.HoldsNul
    · refine .inr ⟨.unusableName, if_pos nul, ?_⟩
      constructor <;> simp [FileError.isSystemError, FileName.Usable, kept, nul]
    · have usable : name.Usable := ⟨kept, nul⟩
      by_cases long : nameLimit < bytes.length ∨ partLimit < (firstPart bytes).length
      · exact .inr ⟨.nameTooLong name, (if_neg nul).trans (if_pos long),
          FileError.blames_of_isSystemError rfl usable⟩
      · exact .inl ⟨bytes, (if_neg nul).trans (if_neg long), usable⟩

theorem isSystemError_absence (directory : Directory) (name : FileName) (bytes : List UInt8) :
    (directory.absence name bytes).isSystemError = true := by
  unfold absence
  split <;> rfl

theorem blames_of_read (refused : directory.read name = .error error) : error.Blames name := by
  unfold Directory.read at refused
  rcases checkName_cases name with ⟨bytes, checked, usable⟩ | ⟨error, checked, blames⟩
  · rw [checked] at refused
    refine FileError.blames_of_isSystemError ?_ usable
    -- Past the check it is the system that refuses.
    change (if _ then _ else _) = _ at refused
    split at refused
    · cases refused
      rfl
    · split at refused
      · cases refused
      · cases refused
        exact directory.isSystemError_absence name bytes
  · rw [checked] at refused
    cases refused
    exact blames

theorem usable_of_read {content : List UInt8} (found : directory.read name = .ok content) :
    name.Usable := by
  rcases checkName_cases name with ⟨bytes, checked, usable⟩ | ⟨error, checked, blames⟩
  · exact usable
  · have refused : directory.read name = .error error := by
      simp only [Directory.read, checked]
      rfl
    cases refused.symm.trans found

end Directory

/-- Where an image comes from. -/
inductive ImageSource where
  | bytes (image : List UInt8)
  | file (name : FileName)

namespace ImageSource

def read (directory : Directory) : ImageSource → Except FileError (List UInt8)
  | bytes image => .ok image
  | file name => directory.read name

/-- If it is a file, the system can be asked for it. -/
def UsableName (source : ImageSource) : Prop := ∀ name, source = .file name → name.Usable

def action : ImageSource → Machine.Action
  | bytes image => .load image
  | file name => .loadFile name

def request : ImageSource → Instance.Request
  | bytes image => .load image
  | file name => .loadFile name

/-- What is wrong with a source, if anything. -/
def refusal (directory : Directory) (source : ImageSource) : Option Failure :=
  match source.read directory with
  | .ok image =>
    if image.length ≤ Memory.imageCapacity then none else some (.image ⟨image.length⟩)
  | .error error => some (.file error)

/-- A failure tells exactly what is wrong with a source. -/
structure Explains (directory : Directory) (source : ImageSource) (failure : Option Failure) :
    Prop where
  loaded : failure = none ↔
    ∃ image, source.read directory = .ok image ∧ image.length ≤ 3584
  tooLarge : ∀ size capacity,
    (∃ rejected, failure = some (.image rejected) ∧
      rejected.error = .imageTooLarge size capacity) ↔
    ∃ image, source.read directory = .ok image ∧ 3584 < image.length ∧
      size = image.length ∧ capacity = 3584
  unread : ∀ error, failure = some (.file error) ↔ source.read directory = .error error
  unreadable :
    (∃ error, failure = some (.file error) ∧ error.isSystemError = true) ↔
      source.UsableName ∧ ∃ error, source.read directory = .error error
  nul : failure = some (.file .unusableName) ↔
    ∃ name, source = .file name ∧ name.Encodable ∧ name.HoldsNul
  surrogate : (∃ place, failure = some (.file (.unencodable place))) ↔
    ∃ name, source = .file name ∧ ¬name.Encodable

variable {directory : Directory} {source : ImageSource} {image : List UInt8} {failure : Failure}

theorem usableName_of_read (found : source.read directory = .ok image) : source.UsableName := by
  rintro name rfl
  exact Directory.usable_of_read found

theorem refusal_of_fits (found : source.read directory = .ok image)
    (fits : image.length ≤ Memory.imageCapacity) : source.refusal directory = none := by
  simp only [refusal, found, if_pos fits]

theorem refusal_of_tooLarge (found : source.read directory = .ok image)
    (tooLarge : ¬image.length ≤ Memory.imageCapacity) :
    source.refusal directory = some (.image ⟨image.length⟩) := by
  simp only [refusal, found, if_neg tooLarge]

theorem refusal_of_error {error : FileError} (absent : source.read directory = .error error) :
    source.refusal directory = some (.file error) := by
  simp only [refusal, absent]

theorem explains_of_ok (found : source.read directory = .ok image) :
    Explains directory source (source.refusal directory) := by
  have usable := usableName_of_read found
  have no_nul : ¬∃ name, source = .file name ∧ name.Encodable ∧ name.HoldsNul := by
    rintro ⟨name, named, -, nul⟩
    exact (usable name named).2 nul
  have no_surrogate : ¬∃ name, source = .file name ∧ ¬name.Encodable := by
    rintro ⟨name, named, lost⟩
    exact lost (usable name named).1
  by_cases fits : image.length ≤ Memory.imageCapacity
  · have short : image.length ≤ 3584 := fits
    rw [refusal_of_fits found fits]
    constructor <;> simp [found, short, no_nul, no_surrogate]
  · have long : 3584 < image.length := Nat.not_le.mp fits
    rw [refusal_of_tooLarge found fits]
    constructor
    case tooLarge => simp [found, long, ImageTooLarge.error, Memory.imageCapacity, eq_comm]
    all_goals simp [found, long, no_nul, no_surrogate]

theorem explains_of_error {error : FileError} (absent : source.read directory = .error error) :
    Explains directory source (source.refusal directory) := by
  -- Bytes that are handed over can always be read.
  obtain ⟨name, rfl⟩ : ∃ name, source = .file name := by
    cases source with
    | bytes image => cases absent
    | file name => exact ⟨name, rfl⟩
  have blames : error.Blames name := Directory.blames_of_read absent
  rw [refusal_of_error absent]
  constructor
  case unreadable => simp [absent, UsableName, blames.system]
  case nul => simp [blames.nul]
  case surrogate => simp [← blames.surrogate]
  all_goals simp [absent]

theorem explains_refusal (directory : Directory) (source : ImageSource) :
    Explains directory source (source.refusal directory) := by
  cases found : source.read directory with
  | ok image => exact explains_of_ok found
  | error error => exact explains_of_error found

end ImageSource

variable {directory : Directory} {source : ImageSource} {image : List UInt8} {failure : Failure}

theorem ImageSource.cases_of_refusal (refused : source.refusal directory = some failure) :
    (∃ error, source.read directory = .error error ∧ failure = .file error) ∨
    ∃ image, source.read directory = .ok image ∧ ¬image.length ≤ Memory.imageCapacity ∧
      failure = .image ⟨image.length⟩ := by
  cases found : source.read directory with
  | error error =>
    rw [refusal_of_error found] at refused
    exact .inl ⟨error, rfl, (Option.some.inj refused).symm⟩
  | ok image =>
    by_cases fits : image.length ≤ Memory.imageCapacity
    · rw [refusal_of_fits found fits] at refused
      cases refused
    · rw [refusal_of_tooLarge found fits] at refused
      exact .inr ⟨image, rfl, fits, (Option.some.inj refused).symm⟩

namespace Machine

theorem perform_of_found (machine : Machine) (found : source.read directory = .ok image) :
    ∃ after, machine.perform directory source.action = machine.loading image after := by
  cases source with
  | bytes image =>
    cases found
    exact ⟨[], rfl⟩
  | file name =>
    have read : directory.read name = .ok image := found
    refine ⟨[.fileLoaded name], ?_⟩
    simp only [ImageSource.action, perform, read]

theorem perform_of_refusal (machine : Machine) (refused : source.refusal directory = some failure) :
    machine.perform directory source.action = ⟨machine, some failure, []⟩ := by
  rcases ImageSource.cases_of_refusal refused with
    ⟨error, absent, rfl⟩ | ⟨image, found, tooLarge, rfl⟩
  · cases source with
    | bytes image => cases absent
    | file name =>
      have read : directory.read name = .error error := absent
      simp only [ImageSource.action, perform, read]
  · obtain ⟨after, performed⟩ := machine.perform_of_found found
    rw [performed, loading_eq, if_neg tooLarge]

theorem perform_of_fits (machine : Machine) (found : source.read directory = .ok image)
    (fits : image.length ≤ Memory.imageCapacity) :
    (machine.perform directory source.action).failure = none ∧
      (machine.perform directory source.action).machine =
        { machine with memory := machine.memory.overlay Memory.imageStart image.toArray } := by
  obtain ⟨after, performed⟩ := machine.perform_of_found found
  rw [performed, loading_eq, if_pos fits]
  exact ⟨rfl, rfl⟩

end Machine

namespace Instance

theorem respond_of_found (current : Instance) (clock : Float)
    (found : source.read directory = .ok image) :
    ∃ after, current.respond ⟨directory, clock, source.request⟩ = current.loading image after := by
  cases source with
  | bytes image =>
    cases found
    exact ⟨[], rfl⟩
  | file name => exact ⟨_, current.respond_loadFile_of_ok found clock⟩

/-- The size is checked before the old program is given up. -/
theorem respond_of_refusal (current : Instance) (clock : Float)
    (refused : source.refusal directory = some failure) :
    current.respond ⟨directory, clock, source.request⟩ = ⟨current, .none, some failure, []⟩ := by
  rcases ImageSource.cases_of_refusal refused with
    ⟨error, absent, rfl⟩ | ⟨image, found, tooLarge, rfl⟩
  · cases source with
    | bytes image => cases absent
    | file name => exact current.respond_loadFile_of_error absent clock
  · obtain ⟨after, responded⟩ := current.respond_of_found clock found
    rw [responded, loading_eq, if_neg tooLarge]

theorem respond_of_fits (current : Instance) (clock : Float)
    (found : source.read directory = .ok image) (fits : image.length ≤ Memory.imageCapacity) :
    (current.respond ⟨directory, clock, source.request⟩).failure = none := by
  obtain ⟨after, responded⟩ := current.respond_of_found clock found
  rw [responded, loading_eq, if_pos fits]

end Instance

/-- A machine and an instance, handed an image or named a file, fail exactly as what is wrong with
the image or the file explains, and are then what they were. Else the image is spliced into the
memory at `0x200`, and the rest of the machine stays. -/
theorem loading_is_all_or_nothing (directory : Directory) (clock : Float) (source : ImageSource)
    (machine : Machine) (current : Instance) :
    let performed := machine.perform directory source.action
    let responded := current.respond ⟨directory, clock, source.request⟩
    source.Explains directory performed.failure ∧
    source.Explains directory responded.failure ∧
    (performed.failure ≠ none → performed.machine = machine) ∧
    (responded.failure ≠ none → responded.inst = current) ∧
    (performed.failure = none → ∃ image, source.read directory = .ok image ∧
      performed.machine = { machine with memory := performed.machine.memory } ∧
      performed.machine.memory.toList =
        machine.memory.toList.take 0x200 ++ image ++
          machine.memory.toList.drop (0x200 + image.length) ∧
      performed.machine.memory.toList.length = 4096) := by
  intro performed responded
  have explains := source.explains_refusal directory
  cases refused : source.refusal directory with
  | some failure =>
    -- Machine and instance give the same failure, so one explanation serves both.
    have performs : performed = ⟨machine, some failure, []⟩ := machine.perform_of_refusal refused
    have responds : responded = ⟨current, .none, some failure, []⟩ :=
      current.respond_of_refusal clock refused
    rw [refused] at explains
    rw [performs, responds]
    exact ⟨explains, explains, fun _ => rfl, fun _ => rfl, by simp⟩
  | none =>
    rw [refused] at explains
    obtain ⟨image, found, fits⟩ := explains.loaded.mp rfl
    obtain ⟨unfailed, loaded⟩ := machine.perform_of_fits found fits
    have unrefused := current.respond_of_fits clock found fits
    rw [unfailed, unrefused]
    refine ⟨explains, explains, by simp, by simp, ?_⟩
    intro _
    refine ⟨image, found, ?_, ?_, Memory.length_toList _⟩
    · rw [loaded]
    · rw [loaded]
      exact machine.memory.toList_overlay fits

/-- One file is there and another is not, and an image is one byte too long. -/
theorem loading_of_two_bytes_and_of_too_many :
    let files : Directory := [("r", [0x12, 0x00])]
    let machine := Machine.initial {} 0
    let current := Instance.create 0 {} 0 0
    (machine.perform files (.loadFile "r")).machine.memory.toList =
      machine.memory.toList.take 0x200 ++ [0x12, 0x00] ++ machine.memory.toList.drop 0x202 ∧
    (machine.perform files (.loadFile "s")).machine = machine ∧
    (current.respond ⟨files, 0, .load (List.replicate 3585 0)⟩).inst = current := by
  intro files machine current
  obtain ⟨explains, -, -, -, splices⟩ :=
    loading_is_all_or_nothing files 0 (.file "r") machine current
  obtain ⟨explains_missing, -, unchanged, -, -⟩ :=
    loading_is_all_or_nothing files 0 (.file "s") machine current
  obtain ⟨-, explains_long, -, unloaded, -⟩ :=
    loading_is_all_or_nothing files 0 (.bytes (List.replicate 3585 0)) machine current
  have two_bytes : files.read "r" = .ok [0x12, 0x00] := by decide +kernel
  have missing : files.read "s" = .error (.missing "s") := by decide +kernel
  refine ⟨?_, unchanged ?_, unloaded ?_⟩
  · obtain ⟨image, found, -, spliced, -⟩ := splices (explains.loaded.mpr ⟨_, two_bytes, by decide⟩)
    have same : image = [0x12, 0x00] := Except.ok.inj (found.symm.trans two_bytes)
    rw [same] at spliced
    exact spliced
  · intro loaded
    obtain ⟨image, found, -⟩ := explains_missing.loaded.mp loaded
    cases missing.symm.trans found
  · intro loaded
    obtain ⟨image, found, fits⟩ := explains_long.loaded.mp loaded
    cases found
    rw [List.length_replicate] at fits
    omega

/-- A name that holds a NUL leads to no image, and yet to no error of the system. -/
theorem nul_name_is_no_system_error :
    let response := (Instance.create 0 {} 0 0).respond ⟨[], 0, .loadFile "a\x00b"⟩
    (∃ error, Directory.read [] "a\x00b" = .error error) ∧
    ¬∃ error, response.failure = some (.file error) ∧ error.isSystemError = true := by
  intro response
  have refused : Directory.read [] "a\x00b" = .error .unusableName := by decide +kernel
  have responded := (Instance.create 0 {} 0 0).respond_loadFile_of_error refused 0
  refine ⟨⟨_, refused⟩, ?_⟩
  rintro ⟨error, failed, system⟩
  have failure : response.failure = some (.file .unusableName) := by
    change (Instance.respond _ _).failure = _
    rw [responded]
  cases failure.symm.trans failed
  cases system

end ChipEight

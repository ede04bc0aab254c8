import AnonGuard.Identity
import AnonGuard.Transition

/-!
# The file of an identity

Several processes may call `load_or_create` on one path. Each writes a key of its own to a
temporary file and links this file to the path, which fails if the path is taken. The first link
decides for all of them. A process that is killed takes no more steps.
-/
namespace AnonGuard

/-- A file, and whether it is regular and closed to other users. -/
structure KeyFile where
  octets : Bytes
  regular : Bool
  isPrivate : Bool

inductive KeyFileError
  | notFound
  | permissionDenied
  | invalidData
  /-- Any other error of a system call. -/
  | system

/-- `read_private_file`. The key is given by its seeds. -/
def readPrivateFile : Option KeyFile → Except KeyFileError Bytes
  | none => .error .notFound
  | some f =>
    if f.regular = false ∨ 72 < f.octets.length then .error .invalidData
    else if f.isPrivate = false then .error .permissionDenied
    else if f.octets.length ≠ 72 ∨ f.octets.take 8 ≠ MAGIC then .error .invalidData
    else .ok (f.octets.drop 8)

/-- Where a process is in `load_or_create`. -/
inductive KeyCall
  | reading
  | creating
  | linking (seeds : Bytes)
  | rereading
  | finishing (key : Bytes)
  | returned (result : Except KeyFileError Bytes)

inductive KeyAction
  | proceed
  | create (seeds : Bytes)
  | fail

namespace KeyCall

/-- A step of a process, with what is at the path before and after it. The temporary file, which
nobody else reads, is written in the step that creates it and removed in the last one. -/
def act (file : Option KeyFile) : KeyCall → KeyAction → Option (Option KeyFile × KeyCall)
  | reading, .proceed =>
    match readPrivateFile file with
    | .error .notFound => some (file, creating)
    | result => some (file, returned result)
  | creating, .create seeds => if seeds.length = 64 then some (file, linking seeds) else none
  | linking seeds, .proceed =>
    match file with
    | none => some (some ⟨MAGIC ++ seeds, true, true⟩, finishing seeds)
    | some _ => some (file, rereading)
  | rereading, .proceed =>
    match readPrivateFile file with
    | .ok key => some (file, finishing key)
    | .error e => some (file, returned (.error e))
  | finishing key, .proceed => some (file, returned (.ok key))
  | returned _, _ => none
  | _, .fail => some (file, returned (.error .system))
  | _, _ => none

/-- The key that a process is about to return is the one at the path. -/
def Agrees (file : Option KeyFile) : KeyCall → Prop
  | linking seeds => seeds.length = 64
  | finishing key | returned (.ok key) => readPrivateFile file = .ok key
  | _ => True

end KeyCall

/-- Nothing at the path is replaced, and only a file that reads as a key is put there. -/
inductive Taken : Option KeyFile → Option KeyFile → Prop
  | same {file : Option KeyFile} : Taken file file
  | new {f : KeyFile} {key : Bytes} (h : readPrivateFile (some f) = .ok key) : Taken none (some f)

lemma Taken.trans {x y z : Option KeyFile} (h : Taken x y) (h' : Taken y z) : Taken x z := by
  cases h' with
  | same => exact h
  | new hkey =>
    cases h
    exact .new hkey

lemma readPrivateFile_new {seeds : Bytes} (h : seeds.length = 64) :
    readPrivateFile (some ⟨MAGIC ++ seeds, true, true⟩) = .ok seeds := by
  have hmagic := SigningKey.length_MAGIC
  have htake : (MAGIC ++ seeds).take 8 = MAGIC := List.take_left' hmagic
  have hdrop : (MAGIC ++ seeds).drop 8 = seeds := List.drop_left' hmagic
  simp [readPrivateFile, htake, hdrop, hmagic, h]

namespace KeyCall
variable {file file' : Option KeyFile} {c c' : KeyCall} {a : KeyAction}

lemma Agrees.mono (h : c.Agrees file) (ht : Taken file file') : c.Agrees file' := by
  cases ht with
  | same => exact h
  | new =>
    unfold Agrees at h ⊢
    split at h <;> first | exact h | cases h

lemma taken_of_act (h : c.act file a = some (file', c')) (hc : c.Agrees file) :
    Taken file file' ∧ c'.Agrees file' := by
  unfold act at h
  split at h
  case h_1 =>
    -- the first read
    split at h <;> cases h
    · exact ⟨.same, trivial⟩
    · refine ⟨.same, ?_⟩
      cases hread : readPrivateFile file with
      | ok => exact hread
      | error => trivial
  case h_2 =>
    split_ifs at h with hsize
    cases h
    exact ⟨.same, hsize⟩
  case h_3 =>
    -- the link, which takes a free path and leaves another one as it is
    split at h <;> cases h
    · exact ⟨.new (readPrivateFile_new hc), readPrivateFile_new hc⟩
    · exact ⟨.same, trivial⟩
  case h_4 =>
    -- the read after a link that has failed
    split at h <;> cases h
    · exact ⟨.same, ‹_›⟩
    · exact ⟨.same, trivial⟩
  case h_5 =>
    cases h
    exact ⟨.same, hc⟩
  case h_7 =>
    cases h
    exact ⟨.same, trivial⟩
  all_goals cases h

end KeyCall

structure KeyDirectory where
  file : Option KeyFile
  calls : List KeyCall

inductive KeyInput
  | call
  | act (process : ℕ) (action : KeyAction)

namespace KeyDirectory

def step (s : KeyDirectory) : KeyInput → Option KeyDirectory
  | .call => some { s with calls := s.calls ++ [.reading] }
  | .act k a => s.calls[k]?.bind fun c => (c.act s.file a).map fun r => ⟨r.1, s.calls.set k r.2⟩

lemma taken_of_step {s s' : KeyDirectory} {i : KeyInput} (hs : s.step i = some s')
    (h : ∀ c ∈ s.calls, c.Agrees s.file) :
    Taken s.file s'.file ∧ ∀ c ∈ s'.calls, c.Agrees s'.file := by
  cases i with
  | call =>
    cases hs
    exact ⟨.same, List.forall_mem_append.mpr ⟨h, by simp [KeyCall.Agrees]⟩⟩
  | act =>
    obtain ⟨c, hc, hs⟩ := Option.bind_eq_some_iff.mp hs
    obtain ⟨⟨file, c'⟩, hact, rfl⟩ := Option.map_eq_some_iff.mp hs
    obtain ⟨htaken, hc'⟩ := KeyCall.taken_of_act hact (h c (List.mem_of_getElem? hc))
    refine ⟨htaken, fun d hd => ?_⟩
    obtain hd | rfl := List.mem_or_eq_of_mem_set hd
    · exact (h d hd).mono htaken
    · exact hc'

/-- However many processes call `load_or_create`, and whatever fails: a file at the path stays as it
is, and every process that gets a key gets the one in it. -/
theorem one_identity {file : Option KeyFile} {s : KeyDirectory} (h : Run step ⟨file, []⟩ s) :
    Taken file s.file ∧
    (∀ key, .returned (.ok key) ∈ s.calls → readPrivateFile s.file = .ok key) ∧
    ∀ i s', s.step i = some s' → Taken s.file s'.file := by
  have hinv : Taken file s.file ∧ ∀ c ∈ s.calls, c.Agrees s.file :=
    h.invariant (I := fun s => Taken file s.file ∧ ∀ c ∈ s.calls, c.Agrees s.file) ⟨.same, by simp⟩
      fun s i s' hinv _ hs => ⟨hinv.1.trans (taken_of_step hs hinv.2).1, (taken_of_step hs hinv.2).2⟩
  exact ⟨hinv.1, fun key hkey => hinv.2 _ hkey, fun i s' hs => (taken_of_step hs hinv.2).1⟩

/-- Two processes find nothing. The second links first, and the first returns its key. -/
theorem race_one_identity : ∃ s key, Run step ⟨none, []⟩ s ∧ .returned (.ok key) ∈ s.calls ∧
    readPrivateFile s.file = .ok key := by
  obtain ⟨a, ha⟩ : ∃ a : Bytes, a.length = 64 := ⟨List.replicate 64 1, rfl⟩
  obtain ⟨b, hb⟩ : ∃ b : Bytes, b.length = 64 := ⟨List.replicate 64 2, rfl⟩
  have hnone : readPrivateFile none = .error .notFound := rfl
  have hrun : runInputs step ⟨none, []⟩ [.call, .call, .act 0 .proceed, .act 1 .proceed,
      .act 0 (.create a), .act 1 (.create b), .act 1 .proceed, .act 0 .proceed, .act 0 .proceed,
      .act 0 .proceed] =
      some ⟨some ⟨MAGIC ++ b, true, true⟩, [.returned (.ok b), .finishing b]⟩ := by
    simp [runInputs, step, KeyCall.act, hnone, ha, hb, readPrivateFile_new hb]
  exact ⟨_, b, .of_inputs _ hrun, by simp, (one_identity (.of_inputs _ hrun)).2.1 b (by simp)⟩

end KeyDirectory

end AnonGuard

import VectorForge.Storage.BinaryIo

/-! Buffered file output against the sink in memory. -/

namespace VectorForge

/-- `OutputFile`: `file` is what the operating system has been given, through `native::write_all`, which
appends, and `native::write_all_at`, which overwrites. -/
structure OutputFile where
  path : String
  isOpen : Bool := true
  file : List Byte := []
  buffer : List Byte := []
  written : Nat := 0
  deriving DecidableEq, Repr

namespace OutputFile

def kBufferBytes : Nat := 1048576

def flushBuffer (f : OutputFile) : OutputFile :=
  if f.buffer = [] then f else
    { f with file := f.file ++ f.buffer, written := f.written + f.buffer.length, buffer := [] }

def write (f : OutputFile) (bytes : List Byte) : Result OutputFile :=
  if f.isOpen = false then .error (.ioError ("write to closed file " ++ f.path))
  else if f.buffer.length + bytes.length ≤ kBufferBytes then .ok { f with buffer := f.buffer ++ bytes }
  else
    let f := f.flushBuffer
    if bytes.length ≥ kBufferBytes then .ok { f with file := f.file ++ bytes, written := f.written + bytes.length }
    else .ok { f with buffer := f.buffer ++ bytes }

/-- `write_at`: the file after the call, which flushes even if it refuses, and whether it refuses. -/
def writeAtCall (f : OutputFile) (offset : Nat) (bytes : List Byte) : OutputFile × Result Unit :=
  if f.isOpen = false then (f, .error (.ioError ("write to closed file " ++ f.path)))
  else
    let f := f.flushBuffer
    if offset > f.written ∨ bytes.length > f.written - offset then
    (f, .error (.ioError ("write_at beyond written data in " ++ f.path)))
    else ({ f with file := f.file.take offset ++ bytes ++ f.file.drop (offset + bytes.length) }, .ok ())

def writeAt (f : OutputFile) (offset : Nat) (bytes : List Byte) : Result OutputFile :=
  match f.writeAtCall offset bytes with
  | (f, .ok ()) => .ok f
  | (_, .error st) => .error st

instance : ByteSink OutputFile := ⟨write, writeAt⟩

def sync (f : OutputFile) : OutputFile := f.flushBuffer

def close (f : OutputFile) : OutputFile := if f.isOpen = false then f else { f.flushBuffer with isOpen := false }

/-- The file holds what the sink in memory holds, apart from what is still buffered. -/
structure Mirrors (s : MemorySink) (f : OutputFile) : Prop where
  isOpen : f.isOpen = true
  bytes : s.bytes = f.file ++ f.buffer
  written : f.written = f.file.length

variable {s : MemorySink} {f : OutputFile}

theorem mirrors_create (path : String) : Mirrors {} { path } := ⟨rfl, rfl, rfl⟩

theorem Mirrors.flushBuffer (mirrors : Mirrors s f) : Mirrors s f.flushBuffer ∧ f.flushBuffer.buffer = [] := by
  obtain ⟨isOpen, bytes, written⟩ := mirrors
  rw [OutputFile.flushBuffer]
  split
  next empty => exact ⟨⟨isOpen, bytes, written⟩, empty⟩
  next => exact ⟨⟨isOpen, by rw [bytes, List.append_nil], by rw [List.length_append, written]⟩, rfl⟩

theorem Mirrors.file_flushBuffer (mirrors : Mirrors s f) : f.flushBuffer.file = s.bytes := by
  obtain ⟨flushed, empty⟩ := mirrors.flushBuffer
  rw [flushed.bytes, empty, List.append_nil]

theorem Mirrors.written_flushBuffer (mirrors : Mirrors s f) : f.flushBuffer.written = s.bytes.length := by
  rw [mirrors.flushBuffer.1.written, mirrors.file_flushBuffer]

/-- A write goes through, whichever of the three ways it takes. -/
theorem Mirrors.write (mirrors : Mirrors s f) (data : List Byte) : ∃ f', f.write data = .ok f' ∧
    Mirrors ⟨s.bytes ++ data⟩ f' := by
  obtain ⟨flushed, empty⟩ := mirrors.flushBuffer
  rw [OutputFile.write, if_neg (by rw [mirrors.isOpen]; decide)]
  split
  next => exact ⟨_, rfl, mirrors.isOpen, by rw [mirrors.bytes, List.append_assoc], mirrors.written⟩
  next =>
    simp only
    split
    next =>
      refine ⟨_, rfl, flushed.isOpen, ?_, by simp only [List.length_append, flushed.written]⟩
      simp only [empty, List.append_nil, mirrors.file_flushBuffer]
    next => exact ⟨_, rfl, flushed.isOpen, by simp only [flushed.bytes, List.append_assoc], flushed.written⟩

/-- Both sinks overwrite the same bytes, or both refuse. -/
theorem Mirrors.writeAt (mirrors : Mirrors s f) (offset : Nat) (data : List Byte)
    (fits : offset + data.length < 2 ^ 64 ∨ s.bytes.length < 2 ^ 64) :
    (∃ s', s.writeAt offset data = .ok s' ∧ (f.writeAtCall offset data).2 = .ok () ∧
      Mirrors s' (f.writeAtCall offset data).1) ∨
      (∃ st st', s.writeAt offset data = .error st ∧ (f.writeAtCall offset data).2 = .error st') ∧
        Mirrors s (f.writeAtCall offset data).1 := by
  obtain ⟨flushed, empty⟩ := mirrors.flushBuffer
  have file := mirrors.file_flushBuffer
  rw [writeAtCall, if_neg (by rw [mirrors.isOpen]; decide)]
  simp only
  rw [mirrors.written_flushBuffer]
  by_cases inside : offset + data.length ≤ s.bytes.length
  · left
    have sum : checkedAdd 64 offset data.length = some (offset + data.length) :=
      (checkedAdd_eq_some (by omega)).mpr ⟨by omega, rfl⟩
    rw [if_neg (by omega), MemorySink.writeAt, sum]
    simp only
    rw [if_neg (by omega)]
    refine ⟨_, rfl, trivial, flushed.isOpen, ?_, ?_⟩
    · simp only [file, empty, List.append_nil]
    · simp only [file, List.length_append, List.length_take, List.length_drop]
      omega
  · right
    rw [if_pos (by omega)]
    refine ⟨?_, flushed⟩
    rw [MemorySink.writeAt]
    split
    next stop sum =>
      have value : stop = offset + data.length := by
        rw [checkedAdd] at sum
        split at sum
        · cases sum
        · exact (Option.some.inj sum).symm
      rw [if_pos (by omega)]
      exact ⟨_, _, rfl, rfl⟩
    next => exact ⟨_, _, rfl, rfl⟩

/-- A call on a sink. -/
inductive Call where
  | write (data : List Byte)
  | writeAt (offset : UInt64) (data : List Byte)

/-- One call: the sink behind it and whether the call was accepted. -/
def Call.onMemory (s : MemorySink) : Call → MemorySink × Bool
  | .write data =>
    match s.write data with
    | .ok s' => (s', true)
    | .error _ => (s, false)
  | .writeAt offset data =>
    match s.writeAt offset.toNat data with
    | .ok s' => (s', true)
    | .error _ => (s, false)

def Call.onFile (f : OutputFile) : Call → OutputFile × Bool
  | .write data =>
    match f.write data with
    | .ok f' => (f', true)
    | .error _ => (f, false)
  | .writeAt offset data => ((f.writeAtCall offset.toNat data).1, (f.writeAtCall offset.toNat data).2.isOk)

/-- The sink behind some calls, and which of them were accepted. -/
def callsOn {σ : Type} (call : σ → Call → σ × Bool) (sink : σ) : List Call → σ × List Bool
  | [] => (sink, [])
  | c :: rest => ((callsOn call (call sink c).1 rest).1, (call sink c).2 :: (callsOn call (call sink c).1 rest).2)

/-- The bytes that some calls append. -/
def appended : List Call → Nat
  | [] => 0
  | .write data :: rest => data.length + appended rest
  | .writeAt _ _ :: rest => appended rest

theorem Mirrors.call (mirrors : Mirrors s f) (c : Call) (fits : s.bytes.length < 2 ^ 64) :
    Mirrors (c.onMemory s).1 (c.onFile f).1 ∧ (c.onMemory s).2 = (c.onFile f).2 ∧
      (c.onMemory s).1.bytes.length = s.bytes.length + appended [c] := by
  cases c with
  | write data =>
    obtain ⟨f', run, after⟩ := mirrors.write data
    simp only [Call.onMemory, Call.onFile, MemorySink.write, run, appended]
    exact ⟨after, trivial, List.length_append⟩
  | writeAt offset data =>
    simp only [Call.onMemory, Call.onFile, appended]
    rcases mirrors.writeAt offset.toNat data (.inr fits) with
      ⟨s', memory, file, after⟩ | ⟨⟨st, st', memory, file⟩, after⟩
    · rw [memory, file]
      refine ⟨after, rfl, ?_⟩
      rw [MemorySink.writeAt] at memory
      split at memory
      next stop sum =>
        split at memory
        next => cases memory
        next inside =>
          cases memory
          have value : stop = offset.toNat + data.length := by
            rw [checkedAdd] at sum
            split at sum
            · cases sum
            · exact (Option.some.inj sum).symm
          simp only [List.length_append, List.length_take, List.length_drop]
          omega
      next => cases memory
    · rw [memory, file]
      exact ⟨after, rfl, rfl⟩

theorem Mirrors.calls : ∀ (calls : List Call) {s : MemorySink} {f : OutputFile}, Mirrors s f →
    s.bytes.length + appended calls < 2 ^ 64 →
    Mirrors (callsOn Call.onMemory s calls).1 (callsOn Call.onFile f calls).1 ∧
      (callsOn Call.onMemory s calls).2 = (callsOn Call.onFile f calls).2
  | [], _, _, mirrors, _ => ⟨mirrors, rfl⟩
  | c :: rest, s, f, mirrors, fits => by
    have split : appended (c :: rest) = appended [c] + appended rest := by
      cases c <;> simp only [appended] <;> omega
    obtain ⟨after, accepted, length⟩ := mirrors.call c (by omega)
    obtain ⟨last, others⟩ := Mirrors.calls rest after (by omega)
    rw [callsOn, callsOn]
    exact ⟨last, by rw [accepted, others]⟩

theorem Mirrors.close (mirrors : Mirrors s f) : f.close.file = s.bytes := by
  rw [OutputFile.close, if_neg (by rw [mirrors.isOpen]; decide)]
  exact mirrors.file_flushBuffer

end OutputFile
end VectorForge

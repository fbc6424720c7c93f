import LoxReader.Proofs.Session.Prompt
import LoxReader.Proofs.Text.LineEnding
import LoxReader.Proofs.Text.Utf8

/-! # Running files

A file is run as the text that it encodes, with one kind of line ending, or it is not run at all and
the session stays as it was. -/

namespace LoxReader.Session

open Text

variable {path : String}

theorem fileSource?_encode (hpath : Char.ofNat 0 ∉ path.toList) (text : List Char) :
    fileSource? path (.ok (Utf8.encode text)) = some ((joinPairs text).map returnToNewline) := by
  simp only [fileSource?, if_neg hpath, Utf8.decode_eq_ok_iff.mpr rfl, unifyLineEndings_eq]

theorem status_runFile (hpath : Char.ofNat 0 ∉ path.toList) (s : Session) (text : List Char) :
    (s.runFile path (.ok (Utf8.encode text))).1 =
      .ok (s.runFile path (.ok (Utf8.encode text))).2.2.status := by
  simp only [runFile, if_neg hpath, Utf8.decode_eq_ok_iff.mpr rfl]

/-- A file that encodes no text is not run. -/
theorem runFile_of_ne_encode (hpath : Char.ofNat 0 ∉ path.toList) (s : Session)
    {bytes : List UInt8} (h : ∀ text, bytes ≠ Utf8.encode text) :
    ∃ fault, s.runFile path (.ok bytes) = (.error (.undecodable fault), [], s) := by
  obtain ⟨fault, hfault⟩ := Utf8.exists_fault h
  refine ⟨fault, ?_⟩
  simp only [runFile, if_neg hpath, hfault]

/-- How the lines of a file end makes no difference. -/
theorem runFile_withLineEnding (hpath : Char.ofNat 0 ∉ path.toList) (s : Session)
    {text ending : List Char} (h : '\r' ∉ text)
    (hending : ending = ['\r', '\n'] ∨ ending = ['\r']) :
    s.runFile path (.ok (Utf8.encode (withLineEnding ending text))) =
      s.runFile path (.ok (Utf8.encode text)) := by
  simp only [runFile, if_neg hpath, Utf8.decode_eq_ok_iff.mpr rfl,
    unifyLineEndings_withLineEnding h hending, unifyLineEndings_of_not_mem h]

/-- A file that encodes a text is run as that text with every pair of a carriage return and a
newline, and then every carriage return left, made a newline; its status tells whether the session
has an error then. Any other file breaks the run off, and a file that cannot be opened gives the
status 1 and one message; both leave output and session as they were. So a text with only newlines
runs the same whatever its lines are ended with. -/
theorem runFile_decodes (hpath : Char.ofNat 0 ∉ path.toList) (s : Session) :
    (∀ text, let (result, events, s') := s.runFile path (.ok (Utf8.encode text))
      let (_, events', s'') := s.run ((joinPairs text).map returnToNewline)
      (∀ text', Utf8.encode text' = Utf8.encode text → text' = text) ∧
      outputOf events = outputOf events' ∧ errorsTextOf events = errorsTextOf events' ∧
      s' = s'' ∧ result = .ok (if s'.hadError then 1 else 0)) ∧
    (∀ bytes, (∀ text, bytes ≠ Utf8.encode text) →
      ∃ fault, s.runFile path (.ok bytes) = (.error (.undecodable fault), [], s)) ∧
    (∀ e, s.runFile path (.error e) =
      (.ok 1, [.err ("Could not read " ++ path ++ ": " ++ e.message ++ "\n")], s)) ∧
    ∀ text ending, '\r' ∉ text → ending = ['\r', '\n'] ∨ ending = ['\r'] →
      s.runFile path (.ok (Utf8.encode (withLineEnding ending text))) =
        s.runFile path (.ok (Utf8.encode text)) := by
  refine ⟨fun text => ?_, fun bytes h => runFile_of_ne_encode hpath s h, fun e => ?_,
    fun text ending h hending => runFile_withLineEnding hpath s h hending⟩
  · obtain ⟨hsession, hout, herr, -⟩ := runFile_of_some (fileSource?_encode hpath text) s
    exact ⟨fun text' h => Utf8.encode_injective h, hout, herr, hsession,
      status_runFile hpath s text⟩
  · rw [runFile, if_neg hpath]

/-- A byte order mark stays, and both kinds of carriage return become newlines. -/
theorem runFile_decodes_byteOrderMark : Char.ofNat 0 ∉ "-".toList ∧
    errorsTextOf ((fresh {}).runFile "-" (.ok [0xEF, 0xBB, 0xBF, 0x0D, 0x0A, 0x31, 0x0D])).2.1 =
      errorsTextOf ((fresh {}).run ['\uFEFF', '\n', '1', '\n']).2.1 := by
  have hpath : Char.ofNat 0 ∉ "-".toList := by decide
  have hbytes : Utf8.encode ['\uFEFF', '\r', '\n', '1', '\r'] =
      [0xEF, 0xBB, 0xBF, 0x0D, 0x0A, 0x31, 0x0D] := by decide
  have hlines : (joinPairs ['\uFEFF', '\r', '\n', '1', '\r']).map returnToNewline =
      ['\uFEFF', '\n', '1', '\n'] := by decide
  have hrun := ((runFile_decodes hpath (fresh {})).1 ['\uFEFF', '\r', '\n', '1', '\r']).2.2.1
  rw [hbytes, hlines] at hrun
  exact ⟨hpath, hrun⟩

end LoxReader.Session

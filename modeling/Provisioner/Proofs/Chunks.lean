import Provisioner.Engine.PathStat
import Provisioner.Proofs.Scanning

namespace Provisioner

namespace Tar

variable {bytes : Bytes} {place n : Nat} {s : Scan}

theorem slice_append {length : Nat} (h : place + length ≤ bytes.length) (more : Bytes) :
    slice place length (bytes ++ more) = slice place length bytes := by
  unfold slice
  rw [List.drop_append_of_le_length (by omega), List.take_append_of_le_length]
  rw [List.length_drop]
  omega

theorem sightAt_append (h : sightAt bytes place ≠ .missing) (more : Bytes) :
    sightAt (bytes ++ more) place = sightAt bytes place := by
  unfold sightAt at h ⊢
  split at h
  · exact absurd rfl h
  · have hl : place + blockSize ≤ bytes.length := by omega
    rw [slice_append hl, if_neg (by rw [List.length_append]; omega), if_neg (by omega)]

theorem Concludes.append (h : Concludes bytes place n s) (hs : s ≠ .needMore) (more : Bytes) :
    Concludes (bytes ++ more) place n s := by
  induction h with
  | missing => exact absurd rfl hs
  | broken h => exact .broken ((sightAt_append (by rw [h]; nofun) more).trans h)
  | entry h => exact .entry ((sightAt_append (by rw [h]; nofun) more).trans h)
  | overflow h hf => exact .overflow ((sightAt_append (by rw [h]; nofun) more).trans h) hf
  | extension h hf _ ih =>
    exact .extension ((sightAt_append (by rw [h]; nofun) more).trans h) hf (ih hs)

/-- What is told of some bytes is told of them with more behind them, unless it is that more are
needed. -/
theorem scan_append (h : scan bytes ≠ .needMore) (more : Bytes) :
    scan (bytes ++ more) = scan bytes := by
  obtain ⟨n, hc⟩ := concludes_scan bytes
  exact (hc.append h more).scanFrom

def longNamed : Bytes :=
  plainHeader [49, 49, 51, 48, 0, 0, 0, 0, 0, 0, 0, 0] 76 ++ List.replicate (2 * blockSize) 97 ++
    directoryHeader

end Tar

namespace Engine

/-- What is told of a path by one scan of all bytes that came, and by the end of the stream where
the scan asks for more. -/
def report (path : String) : Tar.Scan → StreamEnd → Reply (Option PathStat)
  | .needMore, .finished => conclude path .needMore
  | .needMore, .failed (.status 404 _) => .ok none
  | .needMore, .failed cause => .error (.api .statPath cause)
  | scan, _ => conclude path scan

theorem report_eq {scan : Tar.Scan} (h : scan ≠ .needMore) (path : String) (ending : StreamEnd) :
    report path scan ending = conclude path scan := by
  cases scan with
  | needMore => exact absurd rfl h
  | found | malformed | overflow => rfl

/-- After chunks that were too few, the next ones are scanned with them. -/
theorem statChunks_report (path : String) {soFar : Bytes} (h : Tar.scan soFar = .needMore)
    (chunks : List Bytes) (ending : StreamEnd) :
    statChunks path soFar chunks ending =
      report path (Tar.scan (soFar ++ chunks.flatten)) ending := by
  -- By induction on the chunks. Once a scan has told something, more bytes do not change it.
  induction chunks generalizing soFar with
  | nil =>
    rw [List.flatten_nil, List.append_nil, h]
    cases ending with
    | finished => rw [statChunks, h, report]
    | failed cause =>
      cases cause with
      | status code message =>
        rw [statChunks]
        split
        · rename_i hc
          rw [hc, report]
        · rename_i hc
          rw [report]
          rintro m hm
          cases hm
          exact hc rfl
      | stream | socketMissing | io | unreadable => rfl
  | cons chunk rest ih =>
    rw [statChunks, List.flatten_cons, ← List.append_assoc]
    by_cases hc : Tar.scan (soFar ++ chunk) = .needMore
    · rw [hc]
      exact ih hc
    · rw [Tar.scan_append hc, report_eq hc]
      split
      · exact absurd ‹_› hc
      · rfl

/-- Wherever a stream is cut, its chunks tell what one scan tells of all of them. -/
theorem chunks_tell_as_one :
    (∀ bytes, Tar.scan bytes ≠ .needMore → ∀ more, Tar.scan (bytes ++ more) = Tar.scan bytes) ∧
    (∀ path chunks ending,
      statChunks path [] chunks ending = report path (Tar.scan chunks.flatten) ending) ∧
    ∀ path chunks chunks' ending, chunks.flatten = chunks'.flatten →
      statChunks path [] chunks ending = statChunks path [] chunks' ending := by
  have hr (path : String) (chunks : List Bytes) (ending : StreamEnd) :
      statChunks path [] chunks ending = report path (Tar.scan chunks.flatten) ending :=
    statChunks_report path (@Tar.Concludes.missing [] 0 rfl).scanFrom chunks ending
  refine ⟨fun bytes h more => Tar.scan_append h more, hr, ?_⟩
  intro path chunks chunks' ending h
  rw [hr, hr, h]

/-- A cut in the middle of the last header, an empty chunk, and a failure that comes too late. -/
theorem longNamed_chunks_tell :
    Tar.scan Tar.longNamed ≠ .needMore ∧
      Tar.scan (Tar.longNamed ++ [1]) = Tar.scan Tar.longNamed ∧
      [Tar.longNamed.take 1700, [], Tar.longNamed.drop 1700].flatten = [Tar.longNamed].flatten ∧
      statChunks "/key" [] [Tar.longNamed.take 1700, [], Tar.longNamed.drop 1700]
          (.failed (.status 404 "")) =
        statChunks "/key" [] [Tar.longNamed] (.failed (.status 404 "")) := by
  have h : Tar.scan Tar.longNamed ≠ .needMore := by decide +kernel
  have hc : [Tar.longNamed.take 1700, [], Tar.longNamed.drop 1700].flatten =
      [Tar.longNamed].flatten := by decide +kernel
  obtain ⟨more, -, cut⟩ := chunks_tell_as_one
  exact ⟨h, more _ h [1], hc, cut "/key" _ _ _ hc⟩

end Engine

end Provisioner

import Provisioner.Proofs.Chunks
import Provisioner.Proofs.Headers

namespace Provisioner.Tar

/-- How a header writes a size: in octal digits, or in bytes behind one that only has its first bit
set, and then the one that counts most comes first. -/
inductive SizeField : Nat → Bytes → Prop
  | octal {n : Nat} {field : Bytes} (h : OctalField n field) (hb : ∀ b ∈ field.head?, b < 0x80) :
    SizeField n field
  | binary {digits : Bytes} (hl : digits.length = 11) :
    SizeField (Nat.ofDigits 256 (digits.map UInt8.toNat)) (0x80 :: digits.reverse)

inductive ExtensionKind where
  | localAttributes
  | globalAttributes
  | longName
  | longLink
  deriving DecidableEq, Repr

def ExtensionKind.mark : ExtensionKind → Char
  | .localAttributes => 'x'
  | .globalAttributes => 'g'
  | .longName => 'L'
  | .longLink => 'K'

/-- A header whose type and size are those of an extension, and its content. The other fields of
the header say nothing here. -/
structure Extension where
  front : Bytes
  size : Bytes
  middle : Bytes
  kind : ExtensionKind
  back : Bytes
  content : Bytes
  front_length : front.length = 124
  size_length : size.length = 12
  middle_length : middle.length = 20
  back_length : back.length = 355
  size_content : SizeField content.length size
  content_length : content.length < 8 ^ 11

namespace Extension

def header (e : Extension) : Bytes :=
  e.front ++ (e.size ++ (e.middle ++ UInt8.ofNat e.kind.mark.toNat :: e.back))

/-- The content is filled up with zeros to whole blocks. -/
def bytes (e : Extension) : Bytes :=
  e.header ++ (e.content ++
    List.replicate ((blockSize - e.content.length % blockSize) % blockSize) 0)

end Extension

/-- The header of an entry. The fields other than the mode and the type say nothing here. -/
structure EntryHeader where
  front : Bytes
  mode : Bytes
  middle : Bytes
  type : UInt8
  back : Bytes
  front_length : front.length = 100
  mode_length : mode.length = 8
  middle_length : middle.length = 48
  back_length : back.length = 355
  type_entry : ∀ kind : ExtensionKind, type ≠ UInt8.ofNat kind.mark.toNat
  nonzero : ∃ b ∈ front ++ (mode ++ (middle ++ type :: back)), b ≠ 0

def EntryHeader.block (e : EntryHeader) : Bytes :=
  e.front ++ (e.mode ++ (e.middle ++ e.type :: e.back))

theorem bigEndian_reverse (digits : Bytes) :
    bigEndian digits.reverse = Nat.ofDigits 256 (digits.map UInt8.toNat) := by
  induction digits with
  | nil => rfl
  | cons d ds ih =>
    unfold bigEndian at ih ⊢
    rw [List.reverse_cons, List.foldl_append, ih, List.map_cons, Nat.ofDigits_cons, List.foldl_cons,
      List.foldl_nil, Nat.mul_comm, Nat.add_comm]

/-- The three digits that count most are not read. They are zero in what is small enough. -/
theorem bigEndian_drop {digits : Bytes} (hl : digits.length = 11)
    (hn : Nat.ofDigits 256 (digits.map UInt8.toNat) < 8 ^ 11) :
    bigEndian (digits.reverse.drop 3) = Nat.ofDigits 256 (digits.map UInt8.toNat) := by
  have hs : digits.map UInt8.toNat =
      (digits.take 8).map UInt8.toNat ++ (digits.drop 8).map UInt8.toNat := by
    rw [← List.map_append, List.take_append_drop]
  have h8 : ((digits.take 8).map UInt8.toNat).length = 8 := by simp [hl]
  rw [hs, Nat.ofDigits_append, h8] at hn ⊢
  have hz : Nat.ofDigits 256 ((digits.drop 8).map UInt8.toNat) = 0 := by omega
  rw [List.drop_reverse, hl, bigEndian_reverse, hz, Nat.mul_zero, Nat.add_zero]

theorem SizeField.read {n : Nat} {field block : Bytes} (h : SizeField n field) (hn : n < 8 ^ 11)
    (hs : slice 124 12 block = field) : size? block = some n := by
  unfold size?
  rw [hs]
  cases h with
  | octal h hb =>
    have hh : field.head?.any (0x80 ≤ ·) = false := by
      cases hf : field.head? with
      | none => rfl
      | some b => simpa using hb b hf
    simp only [hh, Bool.false_eq_true, if_false]
    exact octal?_eq_some.mpr h
  | binary hl => exact congrArg some (bigEndian_drop hl hn)

namespace Extension

variable (e : Extension)

theorem header_length : e.header.length = blockSize := by
  simp only [header, List.length_append, List.length_cons, e.front_length, e.size_length,
    e.middle_length, e.back_length, blockSize]

theorem size?_header : size? e.header = some e.content.length := by
  refine e.size_content.read e.content_length ?_
  unfold slice header
  rw [List.drop_left' e.front_length, List.take_left' e.size_length]

theorem entryType_header : entryType e.header = .ofByte (UInt8.ofNat e.kind.mark.toNat) := by
  have hl : (e.front ++ (e.size ++ e.middle)).length = 156 := by
    simp only [List.length_append, e.front_length, e.size_length, e.middle_length]
  unfold entryType header
  rw [← List.append_assoc e.size, ← List.append_assoc, List.getElem?_append_right hl.le, hl]
  rfl

theorem sight_header : sight e.header = .extension e.content.length := by
  have hm : UInt8.ofNat e.kind.mark.toNat ≠ 0 ∧
      (EntryType.ofByte (UInt8.ofNat e.kind.mark.toNat)).isExtension = true := by
    cases e.kind <;> decide
  have he : isEmptyBlock e.header = false := by
    unfold isEmptyBlock header
    rw [List.all_eq_false]
    exact ⟨UInt8.ofNat e.kind.mark.toNat, by simp, by simpa using hm.1⟩
  unfold sight
  rw [he, e.entryType_header, hm.2, e.size?_header]
  rfl

theorem bytes_length : e.bytes.length = blockSize + paddedSize e.content.length := by
  simp only [bytes, List.length_append, List.length_replicate, e.header_length, paddedSize,
    blockSize]
  omega

end Extension

theorem isExtension_ofByte {b : UInt8}
    (h : ∀ kind : ExtensionKind, b ≠ UInt8.ofNat kind.mark.toNat) :
    (EntryType.ofByte b).isExtension = false := by
  have marked : ∀ b : UInt8, (EntryType.ofByte b).isExtension = true →
      ∃ kind ∈ [ExtensionKind.localAttributes, .globalAttributes, .longName, .longLink],
        b = UInt8.ofNat kind.mark.toNat := forall_byte (by decide +kernel)
  refine Bool.eq_false_iff.mpr fun hx => ?_
  obtain ⟨kind, -, hk⟩ := marked b hx
  exact h kind hk

namespace EntryHeader

variable (e : EntryHeader)

theorem block_length : e.block.length = blockSize := by
  simp only [block, List.length_append, List.length_cons, e.front_length, e.mode_length,
    e.middle_length, e.back_length, blockSize]

theorem mode_block : Tar.mode e.block = (octal? e.mode).getD 0 := by
  have hs : slice 100 8 e.block = e.mode := by
    unfold slice block
    rw [List.drop_left' e.front_length, List.take_left' e.mode_length]
  have hm : (octal? e.mode).getD 0 < UInt32.size := by
    cases ho : octal? e.mode with
    | none => decide
    | some n =>
      have hn := (octal?_eq_some.mp ho).lt_pow
      rw [e.mode_length] at hn
      exact hn.trans (by decide)
  rw [Tar.mode, hs, Nat.mod_eq_of_lt hm]

theorem entryType_block : entryType e.block = .ofByte e.type := by
  have hl : (e.front ++ (e.mode ++ e.middle)).length = 156 := by
    simp only [List.length_append, e.front_length, e.mode_length, e.middle_length]
  unfold entryType block
  rw [← List.append_assoc e.mode, ← List.append_assoc, List.getElem?_append_right hl.le, hl]
  rfl

def stat : PathStat := ⟨(EntryType.ofByte e.type).pathKind, (octal? e.mode).getD 0⟩

theorem sight_block : sight e.block = .entry e.stat := by
  have he : isEmptyBlock e.block = false := by
    obtain ⟨b, hb, hz⟩ := e.nonzero
    exact List.all_eq_false.mpr ⟨b, hb, by simpa using hz⟩
  have hx := isExtension_ofByte e.type_entry
  rw [sight, he, e.entryType_block, hx, statOf, e.entryType_block, e.mode_block]
  rfl

end EntryHeader

def capacity : Nat := 2 ^ 63 - 1

theorem sightAt_block {done block rest buffer : Bytes} (hb : buffer <+: done ++ (block ++ rest))
    (hl : block.length = blockSize) (hd : done.length + blockSize ≤ buffer.length) :
    sightAt buffer done.length = sight block := by
  obtain ⟨more, hm⟩ := hb
  unfold sightAt
  rw [if_neg (Nat.not_lt.mpr hd), ← slice_append hd more, hm]
  unfold slice
  rw [List.drop_left, List.take_left' hl]

theorem sightAt_missing {bytes : Bytes} {place : Nat} (h : bytes.length < place + blockSize) :
    sightAt bytes place = .missing := if_pos h

theorem Extension.fits (e : Extension) {place : Nat} {buffer : Bytes}
    (hd : place + blockSize ≤ buffer.length) (hc : buffer.length ≤ capacity) :
    Fits place e.content.length := by
  have hn := e.content_length
  simp only [Fits, paddedSize, blockSize, placeBound, UInt64.size, capacity] at *
  omega

theorem concludes_cut (records : List Extension) (last : EntryHeader) (suffix : Bytes)
    {done buffer : Bytes}
    (hb : buffer <+: done ++ (records.flatMap Extension.bytes ++ (last.block ++ suffix)))
    (hc : buffer.length ≤ capacity) :
    ∃ n, Concludes buffer done.length n
      (if (done ++ (records.flatMap Extension.bytes ++ last.block)).length ≤ buffer.length then
        .found last.stat else .needMore) := by
  -- What is left of the extensions gets shorter, and what is done is already in front.
  induction records generalizing done with
  | nil =>
    rw [List.flatMap_nil, List.nil_append, List.length_append, last.block_length]
    rw [List.flatMap_nil, List.nil_append] at hb
    split
    · next hd =>
      exact ⟨1, .entry ((sightAt_block hb last.block_length hd).trans last.sight_block)⟩
    · next hd => exact ⟨1, .missing (sightAt_missing (Nat.not_le.mp hd))⟩
  | cons e rest ih =>
    have hl : (e :: rest).flatMap Extension.bytes = e.bytes ++ rest.flatMap Extension.bytes :=
      List.flatMap_cons
    rw [hl, List.append_assoc e.bytes, ← List.append_assoc done]
    rw [hl, List.append_assoc e.bytes, ← List.append_assoc done] at hb
    obtain ⟨n, hn⟩ := ih hb
    by_cases hd : done.length + blockSize ≤ buffer.length
    · have hs : sightAt buffer done.length = .extension e.content.length := by
        rw [List.append_assoc done, Extension.bytes, List.append_assoc e.header] at hb
        exact (sightAt_block hb e.header_length hd).trans e.sight_header
      rw [@List.length_append _ done, e.bytes_length] at hn
      exact ⟨n + 1, .extension hs (e.fits hd hc) hn⟩
    · have hm : ¬((done ++ e.bytes) ++ (rest.flatMap Extension.bytes ++ last.block)).length ≤
          buffer.length := by
        simp only [List.length_append, e.bytes_length]
        omega
      rw [if_neg hm]
      exact ⟨1, .missing (sightAt_missing (Nat.not_le.mp hd))⟩

/-- However many extensions there are, whatever they hold and wherever the buffer ends: the scan
finds what the type byte and the mode of the header after them say, and asks for more as long as that
header is not all there. -/
theorem scan_passes_extensions (records : List Extension) (last : EntryHeader) (suffix : Bytes)
    {buffer : Bytes} (hb : buffer <+: records.flatMap Extension.bytes ++ (last.block ++ suffix))
    (hc : buffer.length ≤ capacity) :
    ∃ stat : PathStat, (∀ kind, Denotes last.type kind ↔ kind = stat.kind) ∧
      (∀ mode, ModeField last.mode mode ↔ mode = stat.mode) ∧
      scan buffer =
        if (records.flatMap Extension.bytes ++ last.block).length ≤ buffer.length then
          .found stat else .needMore := by
  obtain ⟨n, hn⟩ := @concludes_cut records last suffix [] buffer hb hc
  exact ⟨last.stat, fun _ => denotes_iff.trans eq_comm, fun _ => modeField_iff.trans eq_comm,
    hn.scanFrom⟩

/-- A long name that looks like the header of a directory. -/
def directoryNamed : Extension where
  front := List.replicate 124 0
  size := Text.bytes " 1000 " ++ List.replicate 6 0
  middle := List.replicate 20 0
  kind := .longName
  back := List.replicate 355 0
  content := directoryHeader
  front_length := List.length_replicate
  size_length := by decide +kernel
  middle_length := List.length_replicate
  back_length := List.length_replicate
  size_content := .octal (octal?_eq_some.mp (by decide +kernel)) (by decide +kernel)
  content_length := by decide +kernel

def unattributed : Extension where
  front := List.replicate 124 0
  size := 0x80 :: (List.replicate 11 0).reverse
  middle := List.replicate 20 0
  kind := .localAttributes
  back := List.replicate 355 0
  content := []
  front_length := List.length_replicate
  size_length := by decide
  middle_length := List.length_replicate
  back_length := List.length_replicate
  size_content :=
    have h : Nat.ofDigits 256 ((List.replicate 11 0).map UInt8.toNat) = ([] : Bytes).length := by
      decide
    h ▸ SizeField.binary (by decide)
  content_length := by decide

def linkHeader : EntryHeader where
  front := List.replicate 100 0
  mode := Text.bytes "0000755" ++ [0]
  middle := List.replicate 48 0
  type := 50
  back := List.replicate 355 0
  front_length := List.length_replicate
  mode_length := by decide +kernel
  middle_length := List.length_replicate
  back_length := List.length_replicate
  type_entry := fun kind => by cases kind <;> decide
  nonzero := by decide +kernel

theorem linkHeader_mode : ModeField linkHeader.mode 493 := by
  have h : Octal 493 "0000755".toList :=
    @Octal.plain [5, 5, 7, 0, 0, 0, 0] (by decide) (by decide)
  have ht : Text.Trimmed "0000755".toList "0000755".toList :=
    .of_ends (by simp [Text.isBlank]) (by simp [Text.isBlank])
  refine .number (.intro ht h ?_)
  simp

theorem scan_passes_directoryNamed :
    let archive := [directoryNamed, unattributed].flatMap Extension.bytes ++
      (linkHeader.block ++ [1, 2, 3])
    (archive <+: archive ∧ archive.length ≤ capacity ∧ scan archive = .found ⟨.symlink, 493⟩) ∧
      archive.take 2047 <+: archive ∧ (archive.take 2047).length ≤ capacity ∧
        scan (archive.take 2047) = .needMore := by
  intro archive
  have hc : archive.length ≤ capacity := by decide +kernel
  have hp : archive.take 2047 <+: archive := List.take_prefix _ _
  have hcp : (archive.take 2047).length ≤ capacity := hp.length_le.trans hc
  refine ⟨⟨List.prefix_rfl, hc, ?_⟩, hp, hcp, ?_⟩
  · obtain ⟨⟨kind, mode⟩, hk, hm, hs⟩ :=
      scan_passes_extensions _ linkHeader [1, 2, 3] List.prefix_rfl hc
    obtain rfl := (hk .symlink).mp (.link (by decide +kernel))
    obtain rfl := (hm 493).mp linkHeader_mode
    rw [hs, if_pos (by decide +kernel)]
  · obtain ⟨stat, -, -, hs⟩ := scan_passes_extensions _ linkHeader [1, 2, 3] hp hcp
    rw [hs, if_neg (by decide +kernel)]

end Provisioner.Tar

import Mathlib.Logic.Basic
import Provisioner.Proofs.References
import Provisioner.Settings.Basic

namespace Provisioner

namespace Image.Reference

open Files.Path (EndsIn)

/-- A text as a repository and a tag. A colon that a slash follows begins no tag. -/
inductive Parts (text : String) : String → String → Prop
  | tagged {repository tag : String} (h : text = repository ++ ":" ++ tag) (hc : ':' ∉ tag.toList)
    (hs : '/' ∉ tag.toList) : Parts text repository tag
  | untagged {name : String} (hn : EndsIn text name) (hc : ':' ∉ name.toList) :
    Parts text text latest

def EndsOpen (r : Reference) : Prop :=
  '@' ∉ r.text.toList ∧ r.text.toList.getLast? = some ':'

instance (r : Reference) : Decidable r.EndsOpen := inferInstanceAs (Decidable (_ ∧ _))

variable {r : Reference} {text repository tag : String}

theorem exists_endsIn (text : String) :
    ∃ name front, EndsIn text name ∧ text.toList = front ++ name.toList := by
  obtain hn | ⟨front, cs, ht, hc⟩ := Text.exists_last '/' text.toList
  · refine ⟨text, [], ?_, rfl⟩
    rw [EndsIn, Text.fields_single hn, List.getLast?_singleton]
  · refine ⟨String.ofList cs, front ++ ['/'], ?_, ?_⟩
    · rw [EndsIn, ht, Text.fields_getLast_append hc, String.toList_ofList]
    · rw [ht, String.toList_ofList, List.append_assoc, List.singleton_append]

theorem exists_parts (hd : '@' ∉ r.text.toList) :
    ∃ repository tag, Parts r.text repository tag ∧ r.split = (repository, some tag) := by
  obtain ⟨name, start, hn, hr⟩ := exists_endsIn r.text
  obtain hc | ⟨front, cs, h, hc⟩ := Text.exists_last ':' r.text.toList
  · have hc' : ':' ∉ name.toList := fun hm => hc (hr ▸ List.mem_append_right start hm)
    exact ⟨r.text, latest, .untagged hn hc', split_without_colon hd hc⟩
  · have hp := split_at_colon hd h hc
    by_cases hs : '/' ∈ cs
    · obtain ⟨ys, zs, rfl, hz⟩ := (Text.exists_last '/' cs).resolve_left (not_not_intro hs)
      have hl : r.text.toList = (front ++ ':' :: ys) ++ '/' :: zs := by
        rw [h, List.append_assoc, List.cons_append]
      have hn' : name.toList = zs := hn.unique hl hz
      have hc' : ':' ∉ name.toList := fun hm =>
        hc (List.mem_append_right ys (List.mem_cons_of_mem _ (hn' ▸ hm)))
      exact ⟨r.text, latest, .untagged hn hc', hp.trans (if_pos hs)⟩
    · refine ⟨String.ofList front, String.ofList cs, .tagged ?_ ?_ ?_, hp.trans (if_neg hs)⟩
      · rw [← String.toList_inj, h]
        simp
      · rwa [String.toList_ofList]
      · rwa [String.toList_ofList]

theorem Parts.plain (h : Parts text repository tag) : ':' ∉ tag.toList ∧ '/' ∉ tag.toList := by
  cases h with
  | tagged _ hc hs => exact ⟨hc, hs⟩
  | untagged => decide

theorem Parts.undigested (h : Parts text repository tag) (hd : '@' ∉ text.toList) :
    '@' ∉ repository.toList ∧ '@' ∉ tag.toList := by
  cases h with
  | tagged h =>
    rw [h] at hd
    simp only [String.toList_append, List.mem_append, not_or] at hd
    exact ⟨hd.1.1, hd.2⟩
  | untagged => exact ⟨hd, by decide⟩

theorem ne_joined (text tag : String) : text ≠ text ++ ":" ++ tag := by
  intro h
  have hl := congrArg (fun t : String => t.toList.length) h
  simp at hl

theorem Parts.one (h : Parts text repository tag) :
    Xor (text = repository ++ ":" ++ tag)
      (repository = text ∧ tag = latest ∧ ∃ name, EndsIn text name ∧ ':' ∉ name.toList) := by
  cases h with
  | tagged h =>
    refine .inl ⟨h, fun hu => ne_joined text tag ?_⟩
    rwa [hu.1] at h
  | untagged hn hc => exact .inr ⟨⟨rfl, rfl, _, hn, hc⟩, ne_joined text latest⟩

theorem split_joined (hr : '@' ∉ repository.toList ∧ '@' ∉ tag.toList)
    (ht : ':' ∉ tag.toList ∧ '/' ∉ tag.toList) :
    (⟨repository ++ ":" ++ tag⟩ : Reference).split = (repository, some tag) := by
  have h : (repository ++ ":" ++ tag).toList = repository.toList ++ ':' :: tag.toList := by simp
  have hd : '@' ∉ (repository ++ ":" ++ tag).toList := by simp [hr]
  rw [split_at_colon hd h ht.1, if_neg ht.2, String.ofList_toList, String.ofList_toList]

/-- Without a digest a reference has one repository and one tag, and the two with a colon between them
are taken apart into the same again. With a digest it stays whole. -/
theorem split_is_canonical (r : Reference) :
    ('@' ∉ r.text.toList → ∃ repository tag, r.split = (repository, some tag) ∧
      (':' ∉ tag.toList ∧ '/' ∉ tag.toList) ∧
      Xor (r.text = repository ++ ":" ++ tag)
        (repository = r.text ∧ tag = latest ∧ ∃ name, EndsIn r.text name ∧ ':' ∉ name.toList) ∧
      (⟨repository ++ ":" ++ tag⟩ : Reference).split = (repository, some tag)) ∧
    ('@' ∈ r.text.toList → r.split = (r.text, none)) := by
  refine ⟨fun hd => ?_, split_digested⟩
  obtain ⟨repository, tag, hp, hs⟩ := exists_parts hd
  exact ⟨repository, tag, hs, hp.plain, hp.one, split_joined (hp.undigested hd) hp.plain⟩

/-- The port of a registry is no tag, and stays where it is when the tag is added. -/
theorem ported_split_is_canonical :
    ('@' ∉ "localhost:5000/ansible".toList ∧
      (⟨"localhost:5000/ansible"⟩ : Reference).split = ("localhost:5000/ansible", some "latest") ∧
      (⟨"localhost:5000/ansible:latest"⟩ : Reference).split =
        ("localhost:5000/ansible", some "latest")) ∧
    '@' ∈ "localhost:5000/ansible:1@sha256:0123".toList ∧
      (⟨"localhost:5000/ansible:1@sha256:0123"⟩ : Reference).split =
        ("localhost:5000/ansible:1@sha256:0123", none) := by
  have hd : '@' ∉ "localhost:5000/ansible".toList := by decide
  have hd' : '@' ∈ "localhost:5000/ansible:1@sha256:0123".toList := by decide
  obtain ⟨repository, tag, hs, -, -, hc⟩ := (split_is_canonical ⟨"localhost:5000/ansible"⟩).1 hd
  have h : (⟨"localhost:5000/ansible"⟩ : Reference).split =
      ("localhost:5000/ansible", some "latest") := by decide +kernel
  obtain ⟨rfl, ht⟩ := Prod.mk.inj (h.symm.trans hs)
  obtain rfl := Option.some.inj ht
  exact ⟨⟨hd, h, hc⟩, hd', (split_is_canonical ⟨"localhost:5000/ansible:1@sha256:0123"⟩).2 hd'⟩

theorem EndsOpen.split (h : r.EndsOpen) : ∃ repository, r.split = (repository, some "") := by
  obtain ⟨front, hr⟩ := List.getLast?_eq_some_iff.mp h.2
  have hs := split_at_colon h.1 hr List.not_mem_nil
  rw [if_neg List.not_mem_nil] at hs
  exact ⟨String.ofList front, hs⟩

theorem Parts.endsOpen (h : Parts r.text repository "") (hd : '@' ∉ r.text.toList) :
    r.EndsOpen := by
  generalize ht : "" = tag at h
  cases h with
  | tagged h =>
    refine ⟨hd, ?_⟩
    rw [h, ← ht, String.append_empty, String.toList_append]
    exact List.getLast?_concat
  | untagged => exact absurd ht (by decide)

end Image.Reference

namespace Settings

theorem not_blank {s : Settings} (h : s.flaw? = none) {t : String × String} (ht : t ∈ s.texts) :
    Text.allBlank t.2 = false := by
  unfold flaw? at h
  split at h
  · cases h
  · rename_i hf
    exact Bool.eq_false_iff.mpr (List.find?_eq_none.mp hf t ht)

end Settings

namespace Engine

open Image (latest)

/-- The parameters of a pull that asks for one image: for the tag that the reference has, for the
latest image if it has none, or for the reference as a whole if it has a digest. From a daemon that
is given no tag, or an empty one, and no digest, all images of the repository come. -/
inductive AsksForOne (r : Image.Reference) : List (String × Parameter) → Prop
  | tagged {repository tag : String} (h : r.text = repository ++ ":" ++ tag) (ht : tag ≠ "") :
    AsksForOne r [("fromImage", .text repository), ("tag", .text tag)]
  | untagged (h : Text.allBlank r.text = false) :
    AsksForOne r [("fromImage", .text r.text), ("tag", .text latest)]
  | digested (h : '@' ∈ r.text.toList) : AsksForOne r [("fromImage", .text r.text)]

variable {r : Image.Reference} {repository tag : String}

theorem pullQuery_tag (h : r.split = (repository, some tag)) :
    pullQuery r = [("fromImage", .text repository), ("tag", .text tag)] := by
  rw [pullQuery, h]
  rfl

theorem pullQuery_digest (h : r.split = (repository, none)) :
    pullQuery r = [("fromImage", .text repository)] := by
  rw [pullQuery, h]
  rfl

theorem not_asksForOne_empty_tag :
    ¬ AsksForOne r [("fromImage", .text repository), ("tag", .text "")] := by
  intro h
  generalize he : "" = tag at h
  cases h with
  | tagged _ ht => exact ht he.symm
  | untagged => exact absurd he (by decide)

/-- With settings that are in order one image is pulled, just if the reference in them does not end
where its tag should begin. -/
theorem pull_asks_for_one {s : Settings} (h : s.flaw? = none) :
    AsksForOne s.imageReference (request (.pullImage s.imageReference)).query ↔
      ¬ s.imageReference.EndsOpen := by
  have hb : Text.allBlank s.imageReference.text = false :=
    Settings.not_blank h (t := ("image", s.image)) List.mem_cons_self
  change AsksForOne _ (pullQuery s.imageReference) ↔ _
  generalize s.imageReference = r at hb
  constructor
  · intro ha ho
    obtain ⟨repository, hs⟩ := ho.split
    rw [pullQuery_tag hs] at ha
    exact not_asksForOne_empty_tag ha
  · intro ho
    by_cases hd : '@' ∈ r.text.toList
    · rw [pullQuery_digest (Image.Reference.split_digested hd)]
      exact .digested hd
    · obtain ⟨repository, tag, hp, hs⟩ := Image.Reference.exists_parts hd
      rw [pullQuery_tag hs]
      have ht : tag ≠ "" := by
        rintro rfl
        exact ho (hp.endsOpen hd)
      cases hp with
      | tagged h => exact .tagged h ht
      | untagged => exact .untagged hb

def portedSettings : Settings := { image := "localhost:5000/ansible" }

theorem ported_pull_asks_for_one : portedSettings.flaw? = none ∧
    (request (.pullImage portedSettings.imageReference)).query =
      [("fromImage", .text "localhost:5000/ansible"), ("tag", .text "latest")] ∧
    AsksForOne portedSettings.imageReference
      [("fromImage", .text "localhost:5000/ansible"), ("tag", .text "latest")] := by
  have h : portedSettings.flaw? = none := by decide +kernel
  have hq : (request (.pullImage portedSettings.imageReference)).query =
      [("fromImage", .text "localhost:5000/ansible"), ("tag", .text "latest")] := by
    decide +kernel
  exact ⟨h, hq, hq ▸ (pull_asks_for_one h).mpr (by decide +kernel)⟩

/-- Settings with such a reference are in order, and the tag that is asked for is empty. -/
theorem open_pull_has_empty_tag : ({ image := "ubuntu:" } : Settings).flaw? = none ∧
    (request (.pullImage ({ image := "ubuntu:" } : Settings).imageReference)).query =
      [("fromImage", .text "ubuntu"), ("tag", .text "")] ∧
    ¬ AsksForOne ⟨"ubuntu:"⟩ [("fromImage", .text "ubuntu"), ("tag", .text "")] :=
  ⟨by decide +kernel, by decide +kernel, not_asksForOne_empty_tag⟩

end Engine

end Provisioner

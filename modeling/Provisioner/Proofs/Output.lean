import Mathlib.Data.List.Basic
import Provisioner.Proofs.Account
import Provisioner.Rehearsal.Answers
import Provisioner.Rehearsal.Script

namespace Provisioner

/-- A record of what a console has taken. A piece that is not refused is taken whole. -/
structure Console.Takes {κ : Type} (console : Console κ) (taken : κ → Bytes) : Prop where
  ask (q : Question) (k : κ) : ∃ shown, taken (console.ask q k).2 = taken k ++ shown
  write (bs : Bytes) (k : κ) : ∃ part, part <+: bs ∧
    ((console.write bs k).1 = .ok () → part = bs) ∧ taken (console.write bs k).2 = taken k ++ part
  flush (k : κ) : taken (console.flush k).2 = taken k

theorem Sink.write_takes (bs : Bytes) (s : Sink) : ∃ part, part <+: bs ∧
    ((s.write bs).1 = .ok () → part = bs) ∧ (s.write bs).2.written = s.written ++ part := by
  unfold Sink.write
  cases s.room with
  | none => exact ⟨bs, List.prefix_rfl, fun _ => rfl, rfl⟩
  | some room =>
    refine ⟨bs.take room, List.take_prefix room bs, fun h => ?_, rfl⟩
    by_cases hr : room < bs.length
    · simp only [if_pos hr] at h
      cases h
    · exact List.take_of_length_le (by omega)

theorem Rehearsal.Answers.console_takes : console.Takes (·.output.written) where
  ask q a := by
    refine ⟨[], ?_⟩
    change (ask q a).2.output.written = _
    unfold ask
    split <;> exact (List.append_nil _).symm
  write bs a := a.output.write_takes bs
  flush _ := rfl

/-- A site at which all answers are laid down in advance, and there is a record of the output. -/
def Rehearsal.site : Site Rehearsal.Script Rehearsal.Answers where
  daemon := Rehearsal.Script.daemon
  console := Rehearsal.Answers.console
  host := { root := .dir 0o755 [], cwd := [], home := none, userProfile := none }
  settings := {}

inductive Move.Adds : Move → Bytes → Prop
  | call (c : Call) (a : c.Answer) : Adds (.call c a) []
  | question (q : Question) (a : Except PromptError Bool) (shown : Bytes) :
    Adds (.question q a) shown
  | written (bs : Bytes) : Adds (.write bs (.ok ())) bs
  | refused {bs part : Bytes} (e : IoError) (h : part <+: bs) : Adds (.write bs (.error e)) part
  | flush (r : Except IoError Unit) : Adds (.flush r) []
  | takeStdin (bs : Bytes) : Adds (.takeStdin bs) []
  | setClock (c : Clock) : Adds (.setClock c) []

inductive Adds : List Move → Bytes → Prop
  | nil : Adds [] []
  | cons {m : Move} {ms : List Move} {bs out : Bytes} (h : m.Adds bs) (hs : Adds ms out) :
    Adds (m :: ms) (bs ++ out)

theorem Move.Adds.of_call {c : Call} {a : c.Answer} {out : Bytes}
    (h : Move.Adds (.call c a) out) : out = [] := by
  cases h
  rfl

theorem Move.exists_adds (m : Move) : ∃ bs, m.Adds bs := by
  match m with
  | .call c a => exact ⟨[], .call c a⟩
  | .question q a => exact ⟨[], .question q a []⟩
  | .write bs (.ok ()) => exact ⟨bs, .written bs⟩
  | .write bs (.error e) => exact ⟨bs, .refused e List.prefix_rfl⟩
  | .flush r => exact ⟨[], .flush r⟩
  | .takeStdin bs => exact ⟨[], .takeStdin bs⟩
  | .setClock c => exact ⟨[], .setClock c⟩

theorem exists_adds (ms : List Move) : ∃ out, Adds ms out := by
  induction ms with
  | nil => exact ⟨[], .nil⟩
  | cons m ms ih =>
    obtain ⟨bs, h⟩ := m.exists_adds
    obtain ⟨out, hs⟩ := ih
    exact ⟨bs ++ out, .cons h hs⟩

theorem Adds.split {ms ns : List Move} {out : Bytes} (h : Adds (ms ++ ns) out) :
    ∃ o o', out = o ++ o' ∧ Adds ms o ∧ Adds ns o' := by
  induction ms generalizing out with
  | nil => exact ⟨[], out, rfl, .nil, h⟩
  | cons m ms ih =>
    obtain _ | ⟨hm, hs⟩ := h
    obtain ⟨o, o', rfl, ho, ho'⟩ := ih hs
    exact ⟨_, o', (List.append_assoc _ o o').symm, .cons hm ho, ho'⟩

def accepted (bs : Bytes) : Move := .write bs (.ok ())

inductive Offers {ε : Type} (f : IoError → ε) (bss : List Bytes) :
    List Move → Bytes → Except ε Unit → Prop
  | taken : Offers f bss (bss.map accepted) bss.flatten (.ok ())
  | refused {pre post : List Bytes} {bs part : Bytes} (e : IoError) (h : bss = pre ++ bs :: post)
    (hp : part <+: bs) : Offers f bss (pre.map accepted ++ [.write bs (.error e)])
      (pre.flatten ++ part) (.error (f e))

namespace Offers

variable {ε : Type} {f : IoError → ε} {bss more : List Bytes} {ms : List Move} {out : Bytes}
  {r : Except ε Unit} {e : ε}

theorem one {bs : Bytes} {r : Except IoError Unit} (h : Adds [.write bs r] out) :
    Offers f [bs] [.write bs r] out (r.mapError f) := by
  obtain _ | ⟨hb, ⟨⟩⟩ := h
  rw [List.append_nil]
  cases hb with
  | written =>
    have h : Offers f [bs] [accepted bs] (bs ++ []) (.ok ()) := .taken
    rwa [List.append_nil] at h
  | refused e hp => exact .refused e (List.nil_append [bs]).symm hp

theorem refuses {bs : Bytes} (h : Offers f [bs] ms out (.error e)) :
    ∃ cause, e = f cause ∧ ms = [.write bs (.error cause)] ∧ out <+: bs := by
  cases h with
  | @refused pre post bs' part cause h hp =>
    obtain ⟨rfl, h⟩ | ⟨-, h⟩ := List.singleton_eq_append_iff.mp h
    · cases h
      exact ⟨cause, rfl, rfl, hp⟩
    · cases h

theorem writes (h : Offers f bss ms out r) : ∀ m ∈ ms, ∃ bs r', m = .write bs r' := by
  have written (pre : List Bytes) : ∀ m ∈ pre.map accepted, ∃ bs r', m = .write bs r' := by
    intro m hm
    obtain ⟨bs, -, rfl⟩ := List.mem_map.mp hm
    exact ⟨bs, _, rfl⟩
  cases h with
  | taken => exact written bss
  | refused => exact List.forall_mem_append.mpr ⟨written _, List.forall_mem_singleton.mpr ⟨_, _, rfl⟩⟩

theorem before (h : Offers f bss ms out (.error e)) : Offers f (bss ++ more) ms out (.error e) := by
  cases h with
  | @refused pre post bs _ e h hp =>
    have hb : bss ++ more = pre ++ bs :: (post ++ more) := by
      rw [h, List.append_assoc, List.cons_append]
    exact .refused e hb hp

theorem behind (h : Offers f more ms out r) :
    Offers f (bss ++ more) (bss.map accepted ++ ms) (bss.flatten ++ out) r := by
  cases h with
  | taken =>
    rw [← List.map_append, ← List.flatten_append]
    exact .taken
  | @refused pre post bs _ e h hp =>
    have hb : bss ++ more = (bss ++ pre) ++ bs :: post := by rw [h, List.append_assoc]
    rw [← List.append_assoc, ← List.append_assoc, ← List.map_append, ← List.flatten_append]
    exact .refused e hb hp

end Offers

namespace Site

variable {δ κ ε α β : Type} {site : Site δ κ} {s t : Session δ κ}

def Emits (site : Site δ κ) (a : Run δ κ ε α) (P : List Move → Bytes → Except ε α → Prop) : Prop :=
  site.Makes a fun ms r => ∀ out, Adds ms out → P ms out r

theorem Step.adds {taken : κ → Bytes} (ht : site.console.Takes taken) {m : Move}
    (h : site.Step s m t) : ∃ bs, m.Adds bs ∧ taken t.console = taken s.console ++ bs := by
  cases h with
  | call c s => exact ⟨[], .call c _, (List.append_nil _).symm⟩
  | question q s =>
    obtain ⟨shown, h⟩ := ht.ask q s.console
    exact ⟨shown, .question q _ shown, h⟩
  | write bs s =>
    obtain ⟨part, hp, hok, h⟩ := ht.write bs s.console
    rcases hr : (site.console.write bs s.console).1 with e | _
    · exact ⟨part, .refused e hp, h⟩
    · obtain rfl := hok hr
      exact ⟨part, .written part, h⟩
  | flush s => exact ⟨[], .flush _, (ht.flush _).trans (List.append_nil _).symm⟩
  | takeStdin s => exact ⟨[], .takeStdin _, (List.append_nil _).symm⟩
  | setClock c s => exact ⟨[], .setClock c, (List.append_nil _).symm⟩

theorem Path.adds {taken : κ → Bytes} (ht : site.console.Takes taken) {ms : List Move}
    (h : site.Path s ms t) : ∃ out, Adds ms out ∧ taken t.console = taken s.console ++ out := by
  induction h with
  | nil s => exact ⟨[], .nil, (List.append_nil _).symm⟩
  | cons hm _ ih =>
    obtain ⟨bs, hb, h⟩ := hm.adds ht
    obtain ⟨out, ho, h'⟩ := ih
    exact ⟨bs ++ out, .cons hb ho, by rw [h', h, List.append_assoc]⟩

variable {P : List Move → Bytes → Except ε α → Prop} {R : List Move → Bytes → Except ε β → Prop}

theorem Emits.told {a : Run δ κ ε α} (h : site.Emits a P) {r : Except ε α}
    (ha : a.apply s = (r, t)) : ∃ ms, site.Path s ms t ∧ (∃ out, P ms out r) ∧
      ∀ taken, site.console.Takes taken →
        ∃ out, P ms out r ∧ taken t.console = taken s.console ++ out := by
  obtain ⟨ms, hp, hP⟩ := h s
  rw [ha] at hp hP
  obtain ⟨out, ho⟩ := exists_adds ms
  refine ⟨ms, hp, ⟨out, hP out ho⟩, fun taken ht => ?_⟩
  obtain ⟨out, ho, h⟩ := hp.adds ht
  exact ⟨out, hP out ho, h⟩

theorem Emits.mono {P' : List Move → Bytes → Except ε α → Prop} {a : Run δ κ ε α}
    (h : site.Emits a P) (hP : ∀ ms out r, P ms out r → P' ms out r) : site.Emits a P' :=
  Makes.mono h fun _ _ h out ho => hP _ _ _ (h out ho)

theorem emits_pure {v : α} (h : P [] [] (.ok v)) : site.Emits (pure v) P :=
  makes_pure fun _ ho => by
    cases ho
    exact h

theorem emits_throw {e : ε} (h : P [] [] (.error e)) : site.Emits (throw e) P :=
  makes_throw fun _ ho => by
    cases ho
    exact h

theorem emits_call {c : Call} {k : c.Answer → Run δ κ ε β}
    (hk : ∀ a, site.Emits (k a) fun ms out r => R (.call c a :: ms) out r) :
    site.Emits (site.call c >>= k) R := by
  refine makes_call fun a => Makes.mono (hk a) fun ms r h out ho => ?_
  obtain _ | ⟨⟨⟩, ho⟩ := ho
  exact h _ ho

theorem emits_demand {a : Run δ κ ε (Reply α)} {told : Reply α → Move} {k : α → Run δ κ ε β}
    {f : DaemonError → ε} (ha : site.Makes a fun ms r => ∃ reply, ms = [told reply] ∧ r = .ok reply)
    (hs : ∀ reply out, (told reply).Adds out → out = [])
    (hk : ∀ v, site.Emits (k v) fun ms out r => R (told (.ok v) :: ms) out r)
    (he : ∀ e, R [told (.error e)] [] (.error (f e))) :
    site.Emits (a >>= fun reply => Site.demand reply f >>= k) R := by
  refine Makes.bind ha ?_ ?_
  · rintro ms reply ⟨_, rfl, h⟩
    cases h
    cases reply with
    | error e =>
      refine makes_still (fun _ => rfl) fun out ho => ?_
      obtain _ | ⟨hm, ⟨⟩⟩ := ho
      cases hs _ _ hm
      exact he e
    | ok v =>
      refine Makes.mono (hk v) fun ms r h out ho => ?_
      obtain _ | ⟨hm, ho⟩ := ho
      cases hs _ _ hm
      exact h _ ho
  · rintro ms e ⟨_, -, h⟩
    cases h

theorem emits_write (bs : Bytes) (f : IoError → ε) :
    site.Emits ((site.write bs).orFail f) (Offers f [bs]) :=
  .orFail (makes_of_step fun s => ⟨_, .write bs s, fun _ ho => .one ho⟩)

theorem emits_flush (f : IoError → ε) : site.Emits (site.flush.orFail f)
    fun ms out r => ∃ r', ms = [.flush r'] ∧ out = [] ∧ r = r'.mapError f := by
  refine .orFail (makes_of_step fun s => ⟨_, .flush s, fun out ho => ⟨_, rfl, ?_, rfl⟩⟩)
  generalize (site.console.flush s.console).1 = r at ho
  obtain _ | ⟨⟨⟩, ⟨⟩⟩ := ho
  rfl

theorem Emits.thenReturn {a : Run δ κ ε Unit} {v : β}
    {P : List Move → Bytes → Except ε Unit → Prop} (ha : site.Emits a P)
    (hv : ∀ ms out, P ms out (.ok ()) → R ms out (.ok v))
    (he : ∀ ms out e, P ms out (.error e) → R ms out (.error e)) :
    site.Emits (a >>= fun _ => pure v) R := by
  refine Makes.bind ha (fun ms _ h => makes_pure ?_) fun ms e h out ho => he ms out e (h out ho)
  rw [List.append_nil]
  exact fun out ho => hv ms out (h out ho)

/-- More is done after some output only if all of it is taken. -/
theorem Emits.after {a : Run δ κ ε Unit} {k : Unit → Run δ κ ε β} {f : IoError → ε}
    {bss : List Bytes} (ha : site.Emits a (Offers f bss))
    (hk : site.Emits (k ()) fun ms out r => R (bss.map accepted ++ ms) (bss.flatten ++ out) r)
    (he : ∀ ms out e, Offers f bss ms out (.error e) → R ms out (.error e)) :
    site.Emits (a >>= k) R := by
  refine Makes.bind ha (fun ms _ h => Makes.mono hk fun ns r hR out ho => ?_)
    fun ms e h out ho => he ms out e (h out ho)
  obtain ⟨o, o', rfl, hm, hn⟩ := ho.split
  cases h o hm
  exact hR o' hn

theorem Emits.thenOffer {a : Run δ κ ε Unit} {k : Unit → Run δ κ ε Unit} {f : IoError → ε}
    {bss more : List Bytes} (ha : site.Emits a (Offers f bss))
    (hk : site.Emits (k ()) (Offers f more)) : site.Emits (a >>= k) (Offers f (bss ++ more)) :=
  ha.after (hk.mono fun _ _ _ h => h.behind) fun _ _ _ h => h.before

end Site

end Provisioner

import Provisioner.Proofs.Preparation

namespace Provisioner

def Event.asked : Event → Call ⊕ Question
  | .call c _ => .inl c
  | .question q _ => .inr q

def Event.isCall : Event → Bool
  | .call .. => true
  | .question .. => false

/-- `t` is the beginning of `w`, up to its last answer. -/
def Agrees (t w : List Event) : Prop :=
  t.map Event.asked <+: w.map Event.asked ∧ t.dropLast <+: w

theorem agrees_beginning {t w : List Event} (h : t <+: w) : Agrees t w :=
  ⟨h.map _, (List.dropLast_prefix t).trans h⟩

theorem agrees_nil (w : List Event) : Agrees [] w := agrees_beginning List.nil_prefix

theorem agrees_last {x y : Event} (h : x.asked = y.asked) (w : List Event) :
    Agrees [x] (y :: w) :=
  ⟨by simp [h], List.nil_prefix⟩

theorem agrees_call (c : Call) (a b : c.Answer) (w : List Event) :
    Agrees [.call c a] (.call c b :: w) :=
  agrees_last (x := .call c a) (y := .call c b) rfl w

theorem agrees_question (q : Question) (a b : Except PromptError Bool) (w : List Event) :
    Agrees [.question q a] (.question q b :: w) :=
  agrees_last (x := .question q a) (y := .question q b) rfl w

theorem Agrees.append_right {t w : List Event} (h : Agrees t w) (w' : List Event) :
    Agrees t (w ++ w') := by
  refine ⟨?_, h.2.trans (List.prefix_append w w')⟩
  rw [List.map_append]
  exact h.1.trans (List.prefix_append _ _)

theorem Agrees.append_left {t w : List Event} (h : Agrees t w) (u : List Event) :
    Agrees (u ++ t) (u ++ w) := by
  refine ⟨by simpa using h.1, ?_⟩
  cases t with
  | nil =>
    rw [List.append_nil]
    exact (List.dropLast_prefix u).trans (List.prefix_append u w)
  | cons x t =>
    rw [List.dropLast_append_of_ne_nil (List.cons_ne_nil x t)]
    exact (List.prefix_append_right_inj u).mpr h.2

theorem Agrees.cons {t w : List Event} (h : Agrees t w) (x : Event) :
    Agrees (x :: t) (x :: w) := h.append_left [x]

/-- A record goes on like its word up to each of its events, and there asks for the same. -/
theorem Agrees.split {u v w : List Event} {x : Event} (h : Agrees (u ++ x :: v) w) :
    ∃ y v', w = u ++ y :: v' ∧ y.asked = x.asked ∧ v.map Event.asked <+: v'.map Event.asked := by
  obtain ⟨hm, hp⟩ := h
  rw [List.dropLast_append_of_ne_nil (List.cons_ne_nil x v)] at hp
  obtain ⟨v', rfl⟩ := (List.prefix_append u _).trans hp
  rw [List.map_append, List.map_append, List.prefix_append_right_inj] at hm
  cases v' with
  | nil => simp at hm
  | cons y v' =>
    rw [List.map_cons, List.map_cons, List.cons_prefix_cons] at hm
    exact ⟨y, v', rfl, hm.1.symm, hm.2⟩

abbrev Words (α : Type) := α → List Event → Prop

variable {δ κ ε α β : Type}

namespace Words

def seq (W : Words α) (X : α → Words β) : Words β := fun u w =>
  ∃ v w₁ w₂, W v w₁ ∧ X v u w₂ ∧ w = w₁ ++ w₂

def request (event : Reply α → Event) (X : α → Words β) : Words β := fun u w =>
  ∃ v x, X v u x ∧ w = event (.ok v) :: x

inductive account (W : Words α) : Account ε α
  | ok {is : List Incident} {v : α} (h : W v (recorded is)) : W.account is (.ok v)
  | error {is : List Incident} {e : ε} {v : α} {w : List Event} (h : W v w)
    (ha : Agrees (recorded is) w) : W.account is (.error e)

end Words

namespace Site

def Keeps (site : Site δ κ) (a : Run δ κ ε α) (W : Words α) : Prop := site.Performs a W.account

variable {site : Site δ κ} {W : Words α} {X : α → Words β}

theorem Keeps.nonempty {a : Run δ κ ε α} (h : site.Keeps a W) (s : Session δ κ) :
    ∃ v w, W v w := by
  obtain ⟨ms, -, ha⟩ := h s
  generalize (a.apply s).1 = r at ha
  cases ha with
  | ok hw | error hw => exact ⟨_, _, hw⟩

/-- From each session there is a path whose record is a word as far as it goes. -/
theorem Keeps.path {a : Run δ κ ε α} (h : site.Keeps a W) (s : Session δ κ) :
    ∃ ms v w, site.Path s ms (a.apply s).2 ∧ W v w ∧ Agrees (recorded (incidents ms)) w ∧
      ∀ v', (a.apply s).1 = .ok v' → v' = v ∧ recorded (incidents ms) = w := by
  obtain ⟨ms, hp, ha⟩ := h s
  generalize (a.apply s).1 = r at ha
  cases ha with
  | ok hw =>
    refine ⟨ms, _, _, hp, hw, agrees_beginning List.prefix_rfl, ?_⟩
    rintro v' ⟨⟩
    exact ⟨rfl, rfl⟩
  | error hw ha => exact ⟨ms, _, _, hp, hw, ha, nofun⟩

theorem keeps_pure {v : α} (h : W v []) : site.Keeps (pure v : Run δ κ ε α) W :=
  performs_pure (.ok h)

theorem Keeps.mono {V : Words α} {a : Run δ κ ε α} (h : site.Keeps a W)
    (hV : ∀ v w, W v w → V v w) : site.Keeps a V := by
  refine Performs.mono h fun is r ha => ?_
  cases ha with
  | ok hw => exact .ok (hV _ _ hw)
  | error hw ha => exact .error (hV _ _ hw) ha

theorem Keeps.seq {a : Run δ κ ε α} {k : α → Run δ κ ε β} (ha : site.Keeps a W)
    (hk : ∀ v, site.Keeps (k v) (X v)) : site.Keeps (a >>= k) (W.seq X) := by
  intro s
  refine Performs.bind ha (fun is v h => ?_) (fun is e h => ?_) s
  · cases h with
    | ok hw =>
      refine Performs.mono (hk v) fun js r h' => ?_
      cases h' with
      | ok hx => exact .ok ⟨v, _, _, hw, hx, recorded_append is js⟩
      | error hx hj =>
        refine .error ⟨v, _, _, hw, hx, rfl⟩ ?_
        rw [recorded_append]
        exact hj.append_left _
  · cases h with
    | error hw hi =>
      -- The word goes on as the next part could have gone on.
      obtain ⟨u, x, hx⟩ := (hk _).nonempty s
      exact .error ⟨_, _, _, hw, hx, rfl⟩ (hi.append_right x)

theorem Keeps.orFail {ε' : Type} {a : Run δ κ ε α} {f : ε → ε'} (h : site.Keeps a W) :
    site.Keeps (a.orFail f) W := by
  refine Performs.orFail (Performs.mono h fun is r ha => ?_)
  cases ha with
  | ok hw => exact .ok hw
  | error hw ha => exact .error hw ha

theorem keeps_throw {e : ε} {v : α} {w : List Event} (h : W v w) :
    site.Keeps (throw e : Run δ κ ε α) W :=
  performs_throw (.error h (agrees_nil w))

theorem keeps_shown {a : Run δ κ ε Unit} {f : IoError → ε} (ha : site.Performs a (Shown f)) :
    site.Keeps a fun _ w => w = [] := by
  refine Performs.mono ha fun is r h => ?_
  cases h with
  | shown => exact .ok rfl
  | failed e => exact .error (v := ()) rfl (agrees_nil [])

/-- Output is in no record, so a part that shows something first has the same words. -/
theorem Keeps.afterShowing {a : Run δ κ ε Unit} {k : Unit → Run δ κ ε α} {f : IoError → ε}
    (ha : site.Performs a (Shown f)) (hk : site.Keeps (k ()) W) : site.Keeps (a >>= k) W := by
  intro s
  obtain ⟨v, w, hw⟩ := hk.nonempty s
  exact Performs.afterShowing ha hk (fun e => .error hw (agrees_nil w)) s

theorem Keeps.andShow {W : Words Unit} {a b : Run δ κ ε Unit} {f : IoError → ε}
    (ha : site.Keeps a W) (hb : site.Performs b (Shown f)) :
    site.Keeps (a >>= fun _ => b) W := by
  refine (ha.seq fun _ => keeps_shown hb).mono ?_
  rintro _ w ⟨_, w, _, h, rfl, rfl⟩
  rwa [List.append_nil]

theorem Keeps.lift {r : Except ε β} {k : β → Run δ κ ε α} (hw : ∃ v w, W v w)
    (hk : ∀ v, r = .ok v → site.Keeps (k v) W) : site.Keeps (liftM r >>= k) W := by
  obtain ⟨v, w, hw⟩ := hw
  cases r with
  | error e => exact performs_still (fun _ => rfl) (.error hw (agrees_nil w))
  | ok b => exact hk b rfl

theorem Keeps.andYield {a : Run δ κ ε α} {f : α → β} (h : site.Keeps a W) :
    site.Keeps (a >>= fun v => pure (f v)) fun u w => ∃ v, u = f v ∧ W v w := by
  refine (h.seq (X := fun v u w => u = f v ∧ w = []) fun v => keeps_pure ⟨rfl, rfl⟩).mono ?_
  rintro u w ⟨v, w, _, h, ⟨rfl, rfl⟩, rfl⟩
  exact ⟨v, rfl, by rwa [List.append_nil]⟩

theorem Keeps.request [Nonempty α] {a : Run δ κ ε (Reply α)} {k : α → Run δ κ ε β}
    {told : Reply α → Incident} {event : Reply α → Event} {f : DaemonError → ε}
    (ha : site.Performs a fun is r => ∃ reply, is = [told reply] ∧ r = .ok reply)
    (ht : ∀ reply, recorded [told reply] = [event reply])
    (hs : ∀ reply reply', (event reply).asked = (event reply').asked)
    (hk : ∀ v, site.Keeps (k v) (X v)) :
    site.Keeps (a >>= fun reply => Site.demand reply f >>= k) (.request event X) := by
  intro s
  refine Performs.demand ha (fun v => ?_) (fun e => ?_) s
  · refine Performs.mono (hk v) fun is r h => ?_
    cases h with
    | ok hx =>
      refine .ok ⟨v, _, hx, ?_⟩
      rw [recorded_append, ht]
      rfl
    | error hx hi =>
      refine .error ⟨v, _, hx, rfl⟩ ?_
      rw [recorded_append, ht]
      exact hi.cons _
  · obtain ⟨v⟩ : Nonempty α := inferInstance
    obtain ⟨u, x, hx⟩ := (hk v).nonempty s
    refine .error ⟨v, x, hx, rfl⟩ ?_
    rw [ht]
    exact agrees_last (hs _ _) x

theorem Keeps.reply [Nonempty α] {a : Run δ κ ε (Reply α)} {told : Reply α → Incident}
    {event : Reply α → Event} {f : DaemonError → ε}
    (ha : site.Performs a fun is r => ∃ reply, is = [told reply] ∧ r = .ok reply)
    (ht : ∀ reply, recorded [told reply] = [event reply])
    (hs : ∀ reply reply', (event reply).asked = (event reply').asked) :
    site.Keeps (a >>= fun reply => Site.demand reply f) fun v w => w = [event (.ok v)] := by
  have h := Keeps.request (f := f) ha ht hs (k := pure) (X := fun v u w => u = v ∧ w = [])
    fun v => keeps_pure ⟨rfl, rfl⟩
  simp only [bind_pure] at h
  refine h.mono ?_
  rintro u w ⟨v, _, ⟨rfl, rfl⟩, rfl⟩
  rfl

theorem Keeps.replyAndShow {a : Run δ κ ε (Reply Unit)} {b : Run δ κ ε Unit}
    {told : Reply Unit → Incident} {event : Reply Unit → Event} {f : DaemonError → ε}
    {g : IoError → ε}
    (ha : site.Performs a fun is r => ∃ reply, is = [told reply] ∧ r = .ok reply)
    (ht : ∀ reply, recorded [told reply] = [event reply])
    (hs : ∀ reply reply', (event reply).asked = (event reply').asked)
    (hb : site.Performs b (Shown g)) :
    site.Keeps (a >>= fun reply => Site.demand reply f >>= fun _ => b)
      fun _ w => w = [event (.ok ())] := by
  refine (Keeps.request ha ht hs fun _ => keeps_shown hb).mono ?_
  rintro _ w ⟨_, _, rfl, rfl⟩
  rfl

def Yields (site : Site δ κ) (a : Run δ κ ε α) (W : Words α) : Prop :=
  site.Performs a fun is r => ∀ v, r = .ok v → W v (recorded is)

theorem Keeps.yields {a : Run δ κ ε α} (h : site.Keeps a W) : site.Yields a W := by
  refine Performs.mono h fun is r ha => ?_
  rintro v rfl
  cases ha with
  | ok hw => exact hw

theorem yields_pure {v : α} (h : W v []) : site.Yields (pure v : Run δ κ ε α) W := by
  refine performs_pure ?_
  rintro _ ⟨⟩
  exact h

theorem yields_throw (e : ε) : site.Yields (throw e : Run δ κ ε α) W := performs_throw nofun

theorem call_yields (c : Call) :
    site.Yields (site.call c : Run δ κ ε c.Answer) fun a w => w = [.call c a] := by
  refine Performs.mono (told_call c) ?_
  rintro _ _ ⟨a, rfl, rfl⟩ _ ⟨⟩
  rfl

theorem Yields.mono {V : Words α} {a : Run δ κ ε α} (h : site.Yields a W)
    (hV : ∀ v w, W v w → V v w) : site.Yields a V :=
  Performs.mono h fun _ _ ha v hv => hV _ _ (ha v hv)

theorem Yields.seq {a : Run δ κ ε α} {k : α → Run δ κ ε β} (ha : site.Yields a W)
    (hk : ∀ v, site.Yields (k v) (X v)) : site.Yields (a >>= k) (W.seq X) := by
  refine Performs.bind ha (fun is v h => ?_) fun is e _ => nofun
  refine Performs.mono (hk v) fun js r h' => ?_
  intro u hu
  exact ⟨v, _, _, h v rfl, h' u hu, recorded_append is js⟩

theorem Yields.orFail {ε' : Type} {a : Run δ κ ε α} {f : ε → ε'} (h : site.Yields a W) :
    site.Yields (a.orFail f) W := by
  refine Performs.orFail (Performs.mono h fun is r ha => ?_)
  intro v hv
  cases r with
  | error e => cases hv
  | ok u =>
    cases hv
    exact ha v rfl

theorem Yields.lift {r : Except ε β} {k : β → Run δ κ ε α}
    (hk : ∀ v, r = .ok v → site.Yields (k v) W) : site.Yields (liftM r >>= k) W := by
  cases r with
  | error e => exact performs_still (fun _ => rfl) nofun
  | ok b => exact hk b rfl

end Site

end Provisioner

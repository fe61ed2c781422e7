import AgentDesk.Logic.Lenience

namespace AgentDesk

open Framework (Program)

variable {S α : Type} {cfg : Config S} {c : Nat} {cs : List (Made S)} {σ : Session S}

/-! Where a session stands with the delivery that it attempts -/

/-- The delivery that the session loaded last, and whether a POST waits for its commit. -/
structure Standing where
  loaded : Option WebhookDelivery
  posted : Bool
  deriving DecidableEq

namespace Standing

def start : Standing := ⟨none, false⟩

def note (s : Standing) : Made S → Standing
  | ⟨.query (.delivery _), .ok (some d)⟩ => if s.posted then s else { s with loaded := some d }
  | ⟨.post _ _ _, _⟩ => { s with posted := true }
  | ⟨.query _, .error _⟩ => { s with posted := false }
  | ⟨.write _, .error _⟩ => { s with posted := false }
  | ⟨.commit, _⟩ => { s with posted := false }
  | ⟨.rollback, _⟩ => { s with posted := false }
  | ⟨.close, _⟩ => { s with posted := false }
  | _ => s

def ofCalls (cs : List (Made S)) : Standing := cs.foldl note start

theorem ofCalls_snoc (cs : List (Made S)) (x : Made S) : ofCalls (cs ++ [x]) = (ofCalls cs).note x := by
  rw [ofCalls, List.foldl_append]
  rfl

/-- The delivery whose POST waits for its commit. -/
def due (s : Standing) : Option WebhookDelivery := if s.posted then s.loaded else none

end Standing

/-- The statement changes the attempts of no delivery but this one, which it counts one more of. -/
def Write.Counts (due : Option WebhookDelivery) : Write S → Prop
  | .updateDelivery id p => p.attempts = none ∨
    ∃ d, due = some d ∧ d.id = id ∧ p.attempts = some (d.attempts + 1)
  | .insert (.delivery d) => d.attempts = 0
  | _ => True

/-- The statement counts an attempt of the delivery. -/
def Write.CountsOne (d : WebhookDelivery) (x : Write S) : Prop :=
  ∃ p, x = .updateDelivery d.id p ∧ p.attempts = some (d.attempts + 1)

/-- The transaction that is open counts the attempt whose POST waits for it, and no other. -/
structure CountsAttempts (cs : List (Made S)) : Prop where
  counts : ∀ x ∈ (Book.ofCalls cs).pending, x.Counts (Standing.ofCalls cs).due
  counted : ∀ d, (Standing.ofCalls cs).due = some d →
    ∃ x ∈ (Book.ofCalls cs).pending, x.CountsOne d

/-- What a session makes of the attempts of a delivery that it holds. -/
def Tracked.Counts (due : Option WebhookDelivery) (o : Tracked WebhookDelivery) : Prop :=
  o.cur.attempts = o.loaded.attempts ∨
    ∃ d, due = some d ∧ d.id = o.loaded.id ∧ o.cur.attempts = d.attempts + 1

/-- The session has the attempt on a delivery that it holds. -/
def Tracked.CountsOne (d : WebhookDelivery) (o : Tracked WebhookDelivery) : Prop :=
  o.loaded.id = d.id ∧ o.loaded.attempts = d.attempts ∧ o.cur.attempts = d.attempts + 1

/-- The session holds or has written the attempt whose POST waits for its commit, and no other. -/
structure Accounts (σ : Session S) (cs : List (Made S)) : Prop where
  tracked : ∀ o ∈ σ.deliveries, o.Counts (Standing.ofCalls cs).due
  new : ∀ d, .delivery d ∈ σ.new → d.attempts = 0
  counts : ∀ x ∈ (Book.ofCalls cs).pending, x.Counts (Standing.ofCalls cs).due
  counted : ∀ d, (Standing.ofCalls cs).due = some d →
    (∃ o ∈ σ.deliveries, o.CountsOne d) ∨ ∃ x ∈ (Book.ofCalls cs).pending, x.CountsOne d

/-- No POST waits for a commit. -/
structure Idle (σ : Session S) (cs : List (Made S)) : Prop where
  accounts : Accounts σ cs
  unposted : (Standing.ofCalls cs).posted = false

theorem Idle.due (h : Idle σ cs) : (Standing.ofCalls cs).due = none := by
  rw [Standing.due, h.unposted]
  rfl

theorem Accounts.start (c : Nat) : Accounts (.start c : Session S) [] :=
  ⟨fun _ h => absurd h List.not_mem_nil, fun _ h => absurd h List.not_mem_nil,
    fun _ h => absurd h List.not_mem_nil, fun _ h => by cases h⟩

theorem Idle.start (c : Nat) : Idle (.start c : Session S) [] := ⟨.start c, rfl⟩

/-- Reading does not begin an attempt. -/
theorem Reading.unposted {cs' : List (Made S)} (h : Reading cs cs')
    (hposted : (Standing.ofCalls cs).posted = false) : (Standing.ofCalls cs').posted = false := by
  induction h with
  | refl => exact hposted
  | @snoc cs' x _ _ hpost _ ih =>
    rw [Standing.ofCalls_snoc]
    obtain ⟨op, r⟩ := x
    cases op with
    | query q =>
      cases r with
      | error e => cases q <;> rfl
      | ok row =>
        cases q with
        | delivery id =>
          cases row with
          | none => exact ih
          | some d => simp [Standing.note, ih]
        | _ => exact ih
    | write ws => cases r <;> first | exact ih | rfl
    | post => cases hpost
    | commit | rollback | close => rfl
    | _ => exact ih

theorem dirtyDelivery_cases (o : Tracked WebhookDelivery) : (dirtyDelivery o : Option (Write S)) = none ∧
      o.cur.attempts = o.loaded.attempts ∨
    dirtyDelivery o = some (.updateDelivery o.loaded.id (o.loaded.diff o.cur) : Write S) := by
  by_cases hdiff : o.loaded.diff o.cur = {}
  · left
    refine ⟨if_pos hdiff, ?_⟩
    have hattempts : changed o.loaded.attempts o.cur.attempts = none :=
      congrArg DeliveryPatch.attempts hdiff
    by_contra hne
    rw [changed, if_neg (Ne.symm hne)] at hattempts
    cases hattempts
  · exact Or.inr (if_neg hdiff)

theorem mem_pending_cases {x : Write S} (h : x ∈ σ.pending) :
    (∃ o ∈ σ.deliveries, dirtyDelivery o = some x) ∨ (∃ row ∈ σ.new, x = .insert row) ∨
      ∀ due, x.Counts due := by
  simp only [Session.pending, List.mem_append, List.mem_filterMap, List.mem_map] at h
  rcases h with (((⟨o, -, ho⟩ | ⟨o, -, ho⟩) | ⟨o, -, ho⟩) | h) | ⟨row, hrow, rfl⟩
  · rcases @dirtyTicket_cases S o.loaded o.cur with hd | hd <;> rw [hd] at ho <;> cases ho
    exact Or.inr (Or.inr fun _ => trivial)
  · rcases @dirtyAgentRun_cases S o.loaded o.cur with hd | hd <;> rw [hd] at ho <;> cases ho
    exact Or.inr (Or.inr fun _ => trivial)
  · rcases @dirtyWebhook_cases S o.loaded o.cur with hd | hd <;> rw [hd] at ho <;> cases ho
    exact Or.inr (Or.inr fun _ => trivial)
  · exact Or.inl h
  · exact Or.inr (Or.inl ⟨row, hrow, rfl⟩)

theorem mem_flushed_deliveries {o : Tracked WebhookDelivery} (h : o ∈ σ.flushed.deliveries) :
    (∃ o' ∈ σ.deliveries, o = o'.flushed) ∨ ∃ d, o = ⟨d, d⟩ := by
  have hadopt : ∀ (rows : List (Row S)) (σ : Session S),
      o ∈ (rows.foldl Session.adopt σ).deliveries → o ∈ σ.deliveries ∨ ∃ d, o = ⟨d, d⟩ := by
    intro rows
    induction rows with
    | nil => exact fun _ h => Or.inl h
    | cons row rows ih =>
      intro σ h
      rcases ih _ h with h | h
      · cases row with
        | delivery d =>
          rcases List.mem_append.mp h with h | h
          · exact Or.inl h
          · exact Or.inr ⟨d, List.mem_singleton.mp h⟩
        | _ => exact Or.inl h
      · exact Or.inr h
  rcases hadopt σ.new _ h with h | h
  · obtain ⟨o', ho', rfl⟩ := List.mem_map.mp h
    exact Or.inl ⟨o', ho', rfl⟩
  · exact Or.inr h

theorem Tracked.Counts.dirty {due : Option WebhookDelivery} {o : Tracked WebhookDelivery}
    (h : o.Counts due) {x : Write S} (hx : dirtyDelivery o = some x) : x.Counts due := by
  rcases @dirtyDelivery_cases S o with ⟨hd, -⟩ | hd
  · rw [hd] at hx
    cases hx
  · rw [hd] at hx
    cases hx
    by_cases hsame : o.loaded.attempts = o.cur.attempts
    · left
      exact if_pos hsame
    · rcases h with hcur | ⟨d, hdue, hid, hcur⟩
      · exact absurd hcur.symm hsame
      · right
        refine ⟨d, hdue, hid, ?_⟩
        rw [← hcur]
        exact if_neg hsame

theorem Tracked.CountsOne.dirty {d : WebhookDelivery} {o : Tracked WebhookDelivery}
    (h : o.CountsOne d) :
    dirtyDelivery o = some (.updateDelivery d.id (o.loaded.diff o.cur) : Write S) ∧
      (Write.updateDelivery d.id (o.loaded.diff o.cur) : Write S).CountsOne d := by
  obtain ⟨hid, hloaded, hcur⟩ := h
  have hne : o.loaded.attempts ≠ o.cur.attempts := by omega
  have hpatch : (o.loaded.diff o.cur).attempts = some (d.attempts + 1) := by
    rw [← hcur]
    exact if_neg hne
  rcases @dirtyDelivery_cases S o with ⟨-, hsame⟩ | hd
  · exact absurd hsame.symm hne
  · rw [hid] at hd
    exact ⟨hd, _, rfl, hpatch⟩

theorem ofCalls_write (cs : List (Made S)) (ws : List (Write S)) :
    Standing.ofCalls (cs ++ [⟨.write ws, .ok ()⟩]) = Standing.ofCalls cs := by
  rw [Standing.ofCalls_snoc]
  rfl

namespace Accounts

/-- A flush writes the attempt that the session holds. -/
theorem flush (h : Accounts σ cs) :
    Accounts σ.flushed (cs ++ [⟨.write σ.pending, .ok ()⟩]) ∧
      ∀ o ∈ σ.flushed.deliveries, o.cur.attempts = o.loaded.attempts := by
  have hsettled : ∀ o ∈ σ.flushed.deliveries, o.cur.attempts = o.loaded.attempts := by
    intro o ho
    rcases mem_flushed_deliveries ho with ⟨o', -, rfl⟩ | ⟨d, rfl⟩ <;> rfl
  refine ⟨⟨fun o ho => Or.inl (hsettled o ho), fun d hd => ?_, fun x hx => ?_, fun d hdue => ?_⟩,
    hsettled⟩
  · rw [flushed_new] at hd
    cases hd
  · rw [ofCalls_write]
    rw [Book.ofCalls_snoc] at hx
    rcases List.mem_append.mp hx with hx | hx
    · exact h.counts x hx
    · rcases mem_pending_cases hx with ⟨o, ho, hdirty⟩ | ⟨row, hrow, rfl⟩ | hx
      · exact (h.tracked o ho).dirty hdirty
      · cases row with
        | delivery d => exact h.new d hrow
        | _ => trivial
      · exact hx _
  · rw [ofCalls_write] at hdue
    right
    rw [Book.ofCalls_snoc]
    rcases h.counted d hdue with ⟨o, ho, hone⟩ | ⟨x, hx, hone⟩
    · obtain ⟨hdirty, hcounts⟩ := hone.dirty
      refine ⟨_, List.mem_append_right _ ?_, hcounts⟩
      simp only [Session.pending, List.mem_append, List.mem_filterMap]
      exact Or.inl (Or.inr ⟨o, ho, hdirty⟩)
    · exact ⟨x, List.mem_append_left _ hx, hone⟩

theorem flush_triple {D : List (Made S) → Prop} (h : Accounts σ cs) :
    (AgentDesk.flush : M S Unit).Triple (atCommit D)
      (fun _ σ' cs' => Accounts σ' cs' ∧ (∀ o ∈ σ'.deliveries, o.cur.attempts = o.loaded.attempts) ∧
        σ'.new = []) (fun _ _ _ => True) σ cs := by
  rw [triple_flush]
  cases hpending : σ.pending with
  | nil =>
    rw [flushes_nil]
    have hparts := List.append_eq_nil_iff.mp hpending
    refine ⟨h, fun o ho => ?_, List.map_eq_nil_iff.mp hparts.2⟩
    have hclean := List.filterMap_eq_nil_iff.mp (List.append_eq_nil_iff.mp hparts.1).2 o ho
    rcases @dirtyDelivery_cases S o with ⟨-, hsame⟩ | hd
    · exact hsame
    · rw [hd] at hclean
      cases hclean
  | cons x ws =>
    rw [← hpending, flushes_of_ne_nil (by rw [hpending]; exact List.cons_ne_nil x ws)]
    refine ⟨trivial, fun _ _ _ => trivial, ?_⟩
    rintro cs' ⟨-, rfl⟩
    exact ⟨h.flush.1, h.flush.2, flushed_new σ⟩

/-- The transaction that a flush leaves counts the attempt that waits for it. -/
theorem countsAttempts (h : Accounts σ cs)
    (hsettled : ∀ o ∈ σ.deliveries, o.cur.attempts = o.loaded.attempts) : CountsAttempts cs := by
  refine ⟨h.counts, fun d hdue => ?_⟩
  rcases h.counted d hdue with ⟨o, ho, -, hloaded, hcur⟩ | hx
  · have hsame := hsettled o ho
    omega
  · exact hx

theorem committed (h : Accounts σ cs)
    (hsettled : ∀ o ∈ σ.deliveries, o.cur.attempts = o.loaded.attempts) :
    Idle σ (cs ++ [⟨.commit, .ok ()⟩]) := by
  have hposted : (Standing.ofCalls (cs ++ [(⟨.commit, .ok ()⟩ : Made S)])).posted = false := by
    rw [Standing.ofCalls_snoc]
    rfl
  have hdue : (Standing.ofCalls (cs ++ [(⟨.commit, .ok ()⟩ : Made S)])).due = none := by
    rw [Standing.due, hposted]
    rfl
  refine ⟨⟨fun o ho => Or.inl (hsettled o ho), h.new, fun x hx => ?_, fun d hd => ?_⟩, hposted⟩
  · rw [Book.ofCalls_snoc] at hx
    cases hx
  · rw [hdue] at hd
    cases hd

theorem commit (h : Accounts σ cs) : (AgentDesk.commit : M S Unit).Triple (atCommit CountsAttempts)
    (fun _ => Idle) (fun _ _ _ => True) σ cs := by
  unfold AgentDesk.commit
  rw [M.triple_bind]
  refine M.triple_mono h.flush_triple ?_ (fun _ _ _ h => h)
  intro _ σ' cs' hflushed
  obtain ⟨haccounts, hsettled, -⟩ := hflushed
  rw [triple_sendCommit]
  refine ⟨haccounts.countsAttempts hsettled, fun _ _ _ => trivial, ?_⟩
  rintro u cs'' ⟨-, rfl⟩
  exact haccounts.committed hsettled

end Accounts

theorem Idle.settled (h : Idle σ cs) : ∀ o ∈ σ.deliveries, o.cur.attempts = o.loaded.attempts := by
  intro o ho
  rcases h.accounts.tracked o ho with hsame | ⟨d, hdue, -⟩
  · exact hsame
  · rw [h.due] at hdue
    cases hdue

/-- Calls after which no POST waits for a commit, and that leave the books alone. -/
theorem Idle.later {cs' : List (Made S)} (h : Idle σ cs)
    (hposted : (Standing.ofCalls cs').posted = false)
    (hpending : (Book.ofCalls cs').pending = (Book.ofCalls cs).pending) : Idle σ cs' := by
  have hdue : (Standing.ofCalls cs').due = none := by
    rw [Standing.due, hposted]
    rfl
  refine ⟨⟨fun o ho => Or.inl (h.settled o ho), h.accounts.new, fun x hx => ?_, fun d hd => ?_⟩, hposted⟩
  · rw [hpending] at hx
    rw [hdue, ← h.due]
    exact h.accounts.counts x hx
  · rw [hdue] at hd
    cases hd

theorem routine_idle : Routine CountsAttempts (@Idle S) where
  same h _ hdeliveries hnew := by
    refine ⟨⟨?_, ?_, h.accounts.counts, ?_⟩, h.unposted⟩
    · rw [hdeliveries]
      exact h.accounts.tracked
    · rw [hnew]
      exact h.accounts.new
    · rw [hdeliveries]
      exact h.accounts.counted
  read h hread := h.later (hread.unposted h.unposted) (by rw [hread.books])
  plain h hrow := by
    refine ⟨⟨h.accounts.tracked, fun d hd => ?_, h.accounts.counts, h.accounts.counted⟩, h.unposted⟩
    rcases List.mem_append.mp hd with hd | hd
    · exact h.accounts.new d hd
    · rw [← List.mem_singleton.mp hd] at hrow
      cases hrow
  write h := ⟨h.accounts.flush.1, by rw [ofCalls_write]; exact h.unposted⟩
  send h _ := ⟨h.accounts.countsAttempts h.settled, h.accounts.committed h.settled⟩

theorem lenient_idle : Lenient (@Idle S) where
  runs rs h := ⟨⟨h.accounts.tracked, h.accounts.new, h.accounts.counts, h.accounts.counted⟩, h.unposted⟩
  row row hrow h := by
    refine ⟨⟨h.accounts.tracked, fun d hd => ?_, h.accounts.counts, h.accounts.counted⟩, h.unposted⟩
    rcases List.mem_append.mp hd with hd | hd
    · exact h.accounts.new d hd
    · exact absurd (List.mem_singleton.mp hd).symm (hrow d)

/-! Attempts -/

theorem Accounts.setDelivery (h : Accounts σ cs) (id : Uuid) {p : DeliveryPatch}
    (hp : p.attempts = none) :
    Accounts (σ.putDelivery id fun o => { o with cur := p.apply o.cur }) cs := by
  have hkept : ∀ o : Tracked WebhookDelivery, (p.apply o.cur).attempts = o.cur.attempts := fun o => by
    simp [DeliveryPatch.apply, hp]
  refine ⟨fun o ho => ?_, h.new, h.counts, fun d hd => ?_⟩
  · obtain ⟨o', ho', rfl⟩ := List.mem_map.mp ho
    split
    · have hcounts := h.tracked o' ho'
      rwa [Tracked.Counts, ← hkept o'] at hcounts
    · exact h.tracked o' ho'
  · rcases h.counted d hd with ⟨o, ho, hid, hloaded, hcur⟩ | hx
    · left
      refine ⟨_, List.mem_map_of_mem ho, ?_⟩
      split
      · exact ⟨hid, hloaded, (hkept o).trans hcur⟩
      · exact ⟨hid, hloaded, hcur⟩
    · exact Or.inr hx

theorem Idle.setDelivery (h : Idle σ cs) (id : Uuid) {p : DeliveryPatch} (hp : p.attempts = none) :
    Idle (σ.putDelivery id fun o => { o with cur := p.apply o.cur }) cs :=
  ⟨h.accounts.setDelivery id hp, h.unposted⟩

/-- The session has loaded this delivery and not touched it. -/
structure Holds (d : WebhookDelivery) (σ : Session S) (cs : List (Made S)) : Prop where
  loaded : (Standing.ofCalls cs).loaded = some d
  fresh : ∀ o ∈ σ.deliveries, o.loaded.id = d.id → o = ⟨d, d⟩

/-- The attempt is made: it is on the delivery that the session holds and waits for the commit. -/
theorem Idle.post {d : WebhookDelivery} (h : Idle σ cs) (hd : Holds d σ cs)
    (hheld : ∃ o ∈ σ.deliveries, o.loaded.id = d.id) (url : String) (body : List Char) (headers : List (String × String)) (r : Except Err Nat) :
    Accounts (σ.putDelivery d.id fun o =>
      { o with cur := DeliveryPatch.apply { attempts := some (d.attempts + 1) } o.cur })
      (cs ++ [⟨.post url body headers, r⟩]) := by
  have hdue : (Standing.ofCalls (cs ++ [(⟨.post url body headers, r⟩ : Made S)])).due = some d := by
    rw [Standing.ofCalls_snoc]
    exact hd.loaded
  have hbooks : Book.ofCalls (cs ++ [(⟨.post url body headers, r⟩ : Made S)]) = Book.ofCalls cs :=
    Book.ofCalls_snoc _ _
  refine ⟨fun o ho => ?_, h.accounts.new, fun x hx => ?_, fun d' hd' => ?_⟩
  · rw [hdue]
    obtain ⟨o', ho', rfl⟩ := List.mem_map.mp ho
    split
    · rename_i hid
      exact Or.inr ⟨d, rfl, hid.symm, rfl⟩
    · exact Or.inl (h.settled o' ho')
  · rw [hbooks] at hx
    have hcounts := h.accounts.counts x hx
    rw [h.due] at hcounts
    cases x with
    | updateDelivery id p =>
      rcases hcounts with hnone | ⟨d', hsome, -⟩
      · exact Or.inl hnone
      · cases hsome
    | insert row => cases row <;> exact hcounts
    | _ => trivial
  · rw [hdue] at hd'
    cases hd'
    obtain ⟨o, ho, hid⟩ := hheld
    left
    refine ⟨_, List.mem_map_of_mem ho, ?_⟩
    rw [if_pos hid, hd.fresh o ho hid]
    exact ⟨rfl, rfl, rfl⟩

theorem settleAttempt_accounts (h : Accounts σ cs) (deliveryId : Uuid) (success : Bool) :
    (WebhookService.settleAttempt cfg deliveryId success).Triple (atCommit CountsAttempts)
      (fun _ => Idle) (fun _ _ _ => True) σ cs := by
  have hlast : ∀ (σ : Session S) cs, Accounts σ cs → (do commit; pure success : M S Bool).Triple
      (atCommit CountsAttempts) (fun _ => Idle) (fun _ _ _ => True) σ cs := by
    intro σ cs h
    rw [M.triple_bind]
    exact M.triple_mono h.commit (fun _ _ _ h => h) (fun _ _ _ h => h)
  unfold WebhookService.settleAttempt
  rw [M.triple_bind, triple_deliveryAttrs]
  refine ⟨fun o _ => ?_, fun _ => trivial⟩
  rw [M.triple_ite]
  refine ⟨fun _ => ?_, fun _ => ?_⟩
  · rw [M.triple_bind, triple_setDelivery, M.triple_bind]
    have hset := h.setDelivery deliveryId (p := { status := some .success }) rfl
    have hrecorded : Accounts { σ.putDelivery deliveryId fun o =>
        { o with cur := DeliveryPatch.apply { status := some .success } o.cur } with
          draws := σ.draws + 1
          new := σ.new ++ [.auditLog ⟨⟨σ.conn, σ.draws⟩, some o.cur.organizationId, none, .webhookSent,
            some "webhook_delivery", some deliveryId.str, some [("event", .str o.cur.event),
              ("status_code", (o.cur.lastStatusCode.map MetaValue.int).getD .null)], 0⟩] } cs := by
      refine ⟨hset.tracked, fun d hd => ?_, hset.counts, hset.counted⟩
      rcases List.mem_append.mp hd with hd | hd
      · exact h.new d hd
      · cases List.mem_singleton.mp hd
    unfold record
    rw [M.triple_bind, triple_uuid4, M.triple_bind, triple_add, M.triple_bind]
    refine M.triple_mono hrecorded.flush_triple ?_ (fun _ _ _ h => h)
    intro _ σ' cs' hflushed
    exact hlast σ' cs' hflushed.1
  · rw [M.triple_ite]
    refine ⟨fun _ => ?_, fun _ => hlast σ cs h⟩
    rw [M.triple_bind, triple_setDelivery]
    exact hlast _ _ (h.setDelivery deliveryId rfl)

theorem performAttempt_idle {d : WebhookDelivery} (h : Idle σ cs) (hd : Holds d σ cs)
    (hheld : ∃ o ∈ σ.deliveries, o.loaded.id = d.id) (w : Webhook) (ownsClient : Bool) :
    (WebhookService.performAttempt cfg d w ownsClient).Triple (atCommit CountsAttempts)
      (fun _ => Idle) (fun _ _ _ => True) σ cs := by
  have hrest : ∀ (success : Bool) (σ : Session S) cs, Accounts σ cs → (do
      if ownsClient then aclose
      WebhookService.settleAttempt cfg d.id success : M S Bool).Triple (atCommit CountsAttempts)
        (fun _ => Idle) (fun _ _ _ => True) σ cs := by
    intro success σ cs h
    cases ownsClient with
    | false => exact settleAttempt_accounts h d.id success
    | true =>
      rw [if_pos rfl, M.triple_bind, triple_aclose]
      refine ⟨trivial, fun _ _ _ => trivial, ?_⟩
      rintro u cs' ⟨-, rfl⟩
      have hstanding : Standing.ofCalls (cs ++ [(⟨.aclose, .ok u⟩ : Made S)]) =
          Standing.ofCalls cs := Standing.ofCalls_snoc _ _
      have hbooks : Book.ofCalls (cs ++ [(⟨.aclose, .ok u⟩ : Made S)]) = Book.ofCalls cs :=
        Book.ofCalls_snoc _ _
      refine settleAttempt_accounts ⟨?_, h.new, ?_, ?_⟩ d.id success
      · rw [hstanding]
        exact h.tracked
      · rw [hstanding, hbooks]
        exact h.counts
      · rw [hstanding, hbooks]
        exact h.counted
  unfold WebhookService.performAttempt
  rw [M.triple_bind, triple_clock]
  refine ⟨trivial, ?_⟩
  rintro now cs₁ ⟨-, rfl⟩
  have hread := reading_clock (@Reading.refl S cs) now
  have hidle := routine_idle.read h hread
  have hholds : Holds d σ (cs ++ [⟨.clock, now⟩]) := by
    refine ⟨?_, hd.fresh⟩
    rw [Standing.ofCalls_snoc]
    exact hd.loaded
  rw [M.triple_bind, triple_setDelivery, M.triple_bind]
  unfold WebhookService.attempt
  rw [M.triple_except, M.triple_bind, triple_post]
  refine ⟨trivial, ?_, ?_⟩
  · rintro e cs₂ ⟨-, rfl⟩
    have hposted := hidle.post hholds hheld w.url (WebhookService.serializePayload d.payload)
      (WebhookService.attemptHeaders cfg.platform d.event w.secret
        (WebhookService.serializePayload d.payload) now) (.error e)
    rw [M.triple_bind, triple_setDelivery]
    exact hrest false _ _ (hposted.setDelivery d.id rfl)
  · rintro status cs₂ ⟨-, rfl⟩
    have hposted := hidle.post hholds hheld w.url (WebhookService.serializePayload d.payload)
      (WebhookService.attemptHeaders cfg.platform d.event w.secret
        (WebhookService.serializePayload d.payload) now) (.ok status)
    rw [M.triple_bind, triple_setDelivery]
    exact hrest _ _ _ (hposted.setDelivery d.id rfl)

/-- Loading the webhook of the delivery leaves the delivery alone. -/
theorem getWebhook_holds {d : WebhookDelivery} (h : Idle σ cs) (hd : Holds d σ cs) (id : Uuid) :
    (getWebhook id).Triple (atCommit CountsAttempts)
      (fun _ σ' cs' => Idle σ' cs' ∧ Holds d σ' cs' ∧ σ'.deliveries = σ.deliveries)
      (fun _ _ _ => True) σ cs := by
  have hread : ∀ w, Idle σ (cs ++ [⟨.query (.webhook id), .ok w⟩]) ∧
      Holds d σ (cs ++ [⟨.query (.webhook id), .ok w⟩]) := by
    intro w
    refine ⟨routine_idle.read h (reading_query .refl _ w), ?_, hd.fresh⟩
    rw [Standing.ofCalls_snoc]
    exact hd.loaded
  rw [triple_getWebhook]
  refine ⟨fun _ _ => ⟨h, hd, rfl⟩, fun _ => ⟨trivial, fun _ _ _ => trivial, ?_, ?_⟩⟩
  · rintro cs' ⟨-, rfl⟩
    exact ⟨(hread none).1, (hread none).2, rfl⟩
  · rintro w cs' ⟨-, rfl⟩
    obtain ⟨hidle, hholds⟩ := hread (some w)
    rw [triple_identify]
    refine ⟨fun _ _ => ⟨hidle, hholds, rfl⟩, fun _ => ⟨?_, ?_, rfl⟩⟩
    · exact routine_idle.same hidle rfl rfl rfl
    · exact ⟨hholds.loaded, hholds.fresh⟩

/-- The attempt on a delivery that the session has just loaded, or does not hold at all. -/
theorem deliverOnce_idle (h : Idle σ cs) (deliveryId : Uuid) (ownsClient : Bool)
    (hheld : ∀ o, σ.delivery? deliveryId = some o → Holds o.cur σ cs ∧ o.loaded.id = o.cur.id) :
    (WebhookService.deliverOnce cfg deliveryId ownsClient).Triple (atCommit CountsAttempts)
      (fun _ => Idle) (fun _ _ _ => True) σ cs := by
  have hload : ∀ (attempt : Option Webhook → M S Bool) (d : WebhookDelivery) (σ : Session S) cs,
      Idle σ cs → Holds d σ cs → (∃ o ∈ σ.deliveries, o.loaded.id = d.id) →
      (∀ (σ : Session S) cs, Idle σ cs → (attempt none).Triple (atCommit CountsAttempts)
        (fun _ => Idle) (fun _ _ _ => True) σ cs) →
      (∀ (w : Webhook) (σ : Session S) cs, Idle σ cs → Holds d σ cs →
        (∃ o ∈ σ.deliveries, o.loaded.id = d.id) → (attempt (some w)).Triple (atCommit CountsAttempts)
          (fun _ => Idle) (fun _ _ _ => True) σ cs) →
      (getWebhook d.webhookId >>= attempt).Triple (atCommit CountsAttempts) (fun _ => Idle)
        (fun _ _ _ => True) σ cs := by
    intro attempt d σ cs h hd hheld hnothing hattempt
    rw [M.triple_bind]
    refine M.triple_mono (getWebhook_holds h hd d.webhookId) ?_ (fun _ _ _ h => h)
    rintro w σ' cs' ⟨hidle, hholds, hsame⟩
    rw [← hsame] at hheld
    cases w with
    | none => exact hnothing σ' cs' hidle
    | some w => exact hattempt w σ' cs' hidle hholds hheld
  unfold WebhookService.deliverOnce
  rw [M.triple_bind, triple_getDelivery]
  refine ⟨fun o ho => ?_, fun hnone => ⟨trivial, fun _ _ _ => trivial, ?_, ?_⟩⟩
  · obtain ⟨hholds, hid⟩ := hheld o ho
    exact hload _ o.cur σ cs h hholds ⟨o, List.mem_of_find?_eq_some ho, hid⟩ (fun _ _ h => h)
      fun w σ cs h hd hheld => performAttempt_idle h hd hheld w ownsClient
  · rintro cs' ⟨-, rfl⟩
    exact routine_idle.read h (reading_query .refl _ _)
  · rintro d cs' ⟨hid, rfl⟩
    change d.id = deliveryId at hid
    subst hid
    have hread := routine_idle.read h (reading_query (@Reading.refl S cs) (.delivery d.id) (some d))
    have hidle : Idle { σ with deliveries := σ.deliveries ++ [⟨d, d⟩] }
        (cs ++ [⟨.query (.delivery d.id), .ok (some d)⟩]) := by
      refine ⟨⟨fun o ho => ?_, hread.accounts.new, hread.accounts.counts, fun d' hd' => ?_⟩,
        hread.unposted⟩
      · rcases List.mem_append.mp ho with ho | ho
        · exact hread.accounts.tracked o ho
        · rw [List.mem_singleton.mp ho]
          exact Or.inl rfl
      · rw [hread.due] at hd'
        cases hd'
    have hholds : Holds d { σ with deliveries := σ.deliveries ++ [⟨d, d⟩] }
        (cs ++ [⟨.query (.delivery d.id), .ok (some d)⟩]) := by
      refine ⟨?_, fun o ho hid => ?_⟩
      · rw [Standing.ofCalls_snoc, Standing.note, h.unposted]
        rfl
      · rcases List.mem_append.mp ho with ho | ho
        · have hmiss := List.find?_eq_none.mp hnone o ho
          exact absurd (beq_iff_eq.mpr hid) hmiss
        · exact List.mem_singleton.mp ho
    have hnew : ∃ o ∈ σ.deliveries ++ [⟨d, d⟩], o.loaded.id = d.id :=
      ⟨⟨d, d⟩, List.mem_append_right _ (List.mem_singleton_self _), rfl⟩
    exact hload _ d _ _ hidle hholds hnew (fun _ _ h => h)
      fun w σ cs h hd hheld => performAttempt_idle h hd hheld w ownsClient

theorem dispatch_idle {d : WebhookDelivery} (h : Idle σ cs) (hd : Holds d σ cs) :
    (WebhookService.dispatch cfg d).Triple (atCommit CountsAttempts) (fun _ => Idle)
      (fun _ _ _ => True) σ cs := by
  have hheld : ∀ o, σ.delivery? d.id = some o → Holds o.cur σ cs ∧ o.loaded.id = o.cur.id := by
    intro o ho
    have hmem := List.mem_of_find?_eq_some ho
    have hid : (o.loaded.id == d.id) = true :=
      @List.find?_some _ (fun o : Tracked WebhookDelivery => o.loaded.id == d.id) _ _ ho
    rw [hd.fresh o hmem (eq_of_beq hid)]
    exact ⟨hd, rfl⟩
  unfold WebhookService.dispatch
  rw [M.triple_ite]
  refine ⟨fun _ => h, fun _ => ?_⟩
  rw [M.triple_ite]
  refine ⟨fun _ => ?_, fun _ => ?_⟩
  · rw [M.triple_bind]
    refine M.triple_mono (deliverOnce_idle h d.id true hheld) ?_ (fun _ _ _ h => h)
    intro _ σ' cs' h'
    exact routine_idle.deliveryAttrs d.id σ' cs' h'
  · exact ((routine_idle.enqueue _).bind fun _ => M.Keeps.pure d) σ cs h

/-- A refreshed delivery is as the session loaded it. -/
theorem Idle.refreshed {d : WebhookDelivery} (h : Idle σ cs) :
    Idle (σ.putDelivery d.id fun _ => ⟨d, d⟩) (cs ++ [⟨.query (.delivery d.id), .ok (some d)⟩]) ∧
      Holds d (σ.putDelivery d.id fun _ => ⟨d, d⟩)
        (cs ++ [⟨.query (.delivery d.id), .ok (some d)⟩]) := by
  have hread := routine_idle.read h (reading_query (@Reading.refl S cs) (.delivery d.id) (some d))
  refine ⟨⟨⟨fun o ho => ?_, hread.accounts.new, hread.accounts.counts, fun d' hd' => ?_⟩,
    hread.unposted⟩, ?_, fun o ho hid => ?_⟩
  · obtain ⟨o', ho', rfl⟩ := List.mem_map.mp ho
    split
    · exact Or.inl rfl
    · exact hread.accounts.tracked o' ho'
  · rw [hread.due] at hd'
    cases hd'
  · rw [Standing.ofCalls_snoc, Standing.note, h.unposted]
    rfl
  · obtain ⟨o', ho', rfl⟩ := List.mem_map.mp ho
    by_cases hsame : o'.loaded.id = d.id
    · exact if_pos hsame
    · rw [if_neg hsame] at hid
      exact absurd hid hsame

theorem enqueueForTicket_idle (ticketId : Uuid) (event : String) :
    (WebhookService.enqueueForTicket cfg ticketId event).Keeps CountsAttempts Idle := by
  have hlast : ∀ id : Uuid, (do
      let delivery ← refreshDelivery id
      some <$> WebhookService.dispatch cfg delivery : M S _).Keeps CountsAttempts Idle := by
    intro id σ cs h
    rw [M.triple_bind, triple_refreshDelivery]
    refine ⟨trivial, fun _ _ _ => trivial, fun _ _ => trivial, ?_⟩
    rintro d cs' ⟨hid, rfl⟩
    change d.id = id at hid
    subst hid
    obtain ⟨hidle, hholds⟩ := @Idle.refreshed S cs σ d h
    rw [M.triple_map]
    exact dispatch_idle hidle hholds
  refine (routine_idle.ticketAttrs ticketId).bind fun t =>
    (getConfig_keeps routine_idle _).bind fun w => ?_
  cases w with
  | none => exact M.Keeps.pure _
  | some w =>
    refine M.Keeps.ite (M.Keeps.pure _) (routine_idle.uuid4.bind fun id => ?_)
    have hrow : (add (.delivery ⟨id, w.id, t.organizationId, event, .obj [], .pending, 0, none, none,
        0⟩) : M S Unit).Keeps CountsAttempts Idle := by
      intro σ cs h
      refine ⟨⟨h.accounts.tracked, fun d hd => ?_, h.accounts.counts, h.accounts.counted⟩, h.unposted⟩
      rcases List.mem_append.mp hd with hd | hd
      · exact h.accounts.new d hd
      · cases List.mem_singleton.mp hd
        rfl
    refine hrow.bind fun _ => routine_idle.flush.bind fun _ => routine_idle.clock.bind fun now => ?_
    have hset : ∀ payload : Json, (setDelivery id { payload := some payload } : M S Unit).Keeps
        CountsAttempts Idle := fun payload _ _ h => h.setDelivery id rfl
    exact (hset _).bind fun _ => routine_idle.commit.bind fun _ => hlast id

/-- Every job counts each attempt in the transaction that its POST waits for. -/
theorem Job.program_countsAttempts [Field S] [LinearOrder S] [FloorRing S] (cfg : Config S)
    (workflow : Workflow S) (job : Job) (c : Nat) :
    (job.program cfg workflow c).Obeys (atCommit CountsAttempts) (fun _ _ => True) [] := by
  have hexpired : ∀ (σ : Session S) cs u, Idle σ.expired (cs ++ [⟨.rollback, .ok u⟩]) := by
    intro σ cs u
    have hposted : (Standing.ofCalls (cs ++ [(⟨.rollback, .ok u⟩ : Made S)])).posted = false := by
      rw [Standing.ofCalls_snoc]
      rfl
    have hpending : (Book.ofCalls (cs ++ [(⟨.rollback, .ok u⟩ : Made S)])).pending = [] := by
      rw [Book.ofCalls_snoc]
      rfl
    exact routine_idle.same ((Idle.start σ.conn).later hposted hpending) rfl rfl rfl
  refine lenient_idle.program routine_idle enqueueForTicket_idle
    (lenient_idle.recordFailure routine_idle hexpired) ?_ Idle.start job c
  intro deliveryId c
  refine M.complies_of_triple (deliverOnce_idle (.start c) deliveryId true ?_)
  intro o ho
  cases ho

/-- A session ends with the close that forgets every POST. -/
theorem Job.program_ends [Field S] [LinearOrder S] [FloorRing S] (cfg : Config S)
    (workflow : Workflow S) (job : Job) (c : Nat) :
    (job.program cfg workflow c).Obeys (atCommit fun _ => True)
      (fun _ cs => (Standing.ofCalls cs).posted = false) [] := by
  have hscope : ∀ {α : Type} (p : M S α) (σ : Session S), (sessionScope p).Triple
      (atCommit fun _ => True) (fun _ _ cs => (Standing.ofCalls cs).posted = false)
      (fun _ _ cs => (Standing.ofCalls cs).posted = false) σ [] := by
    intro α p σ
    have hany : (p σ).Obeys (atCommit fun _ => True) (fun _ _ => True) [] :=
      Program.obeys_invariant (I := fun _ => True)
        (fun {_ op} _ => ⟨by cases op <;> trivial, fun _ _ _ => trivial⟩) _ trivial
    unfold M.Triple sessionScope
    rw [Program.obeys_bind]
    refine Program.obeys_mono hany fun x cs _ => ⟨trivial, ?_⟩
    rintro u cs' ⟨-, rfl⟩
    have hclosed : (Standing.ofCalls (cs ++ [(⟨.close, u⟩ : Made S)])).posted = false := by
      rw [Standing.ofCalls_snoc]
      rfl
    obtain ⟨_ | a, σ'⟩ := x <;> exact hclosed
  have done : ∀ {α : Type} {p : M S α} {σ : Session S}, p.Triple (atCommit fun _ => True)
      (fun _ _ cs => (Standing.ofCalls cs).posted = false)
      (fun _ _ cs => (Standing.ofCalls cs).posted = false) σ [] →
        (p σ).Obeys (atCommit fun _ => True) (fun _ cs => (Standing.ofCalls cs).posted = false) [] := by
    intro α p σ h
    refine Program.obeys_mono h ?_
    rintro ⟨_ | a, σ'⟩ cs h <;> exact h
  cases job with
  | request r =>
    simp only [Job.program, Program.obeys_bind]
    exact done (hscope _ _)
  | runAgent runId =>
    simp only [Job.program, Program.obeys_bind]
    refine done ?_
    unfold Tasks.runAgent
    rw [M.triple_bind]
    exact hscope _ _
  | deliverWebhook deliveryId retries =>
    simp only [Job.program, Program.obeys_bind]
    refine done ?_
    unfold Tasks.deliverWebhook
    rw [M.triple_bind]
    refine M.triple_mono (hscope _ _) (fun success σ cs h => ?_) (fun _ _ _ h => h)
    rw [M.triple_ite]
    exact ⟨fun _ => h, fun _ => h⟩

end AgentDesk

import AgentDesk.Logic.Ledger
import AgentDesk.Logic.Tables

namespace AgentDesk

open Framework (Observer)

variable {S α β : Type} {own : Uuid → Prop} {c : Nat} {K K' held : Set Lock} {σ : Session S}
  {row : Row S}

/-! What a session locks -/

/-- The locks that these statements need. -/
def locksOf (ws : List (Write S)) : Set Lock := {l | ∃ x ∈ ws, x.lock? = some l}

def Lock.isRun : Lock → Bool
  | .agentRun _ => true
  | _ => false

/-- A new organization's name comes before the address of its first user. -/
def Lock.rank : Lock → ℕ
  | .organizationName _ => 0
  | _ => 1

/-- What a session holds after a call. -/
def holding (held : Set Lock) : (op : Op S) → Res op → Set Lock
  | .write ws, .ok _ => held ∪ locksOf ws
  | .write _, .error _ => ∅
  | .query _, .error _ => ∅
  | .commit, _ => ∅
  | .rollback, _ => ∅
  | .close, _ => ∅
  | _, _ => held

/-- The observer of the locks of session `c`: it inserts rows under ids that it drew, locks no runs
but its own, and locks everything else in the order of the ranks. -/
def claimant (own : Uuid → Prop) (c : Nat) : Observer (Op S) Res (Set Lock) where
  ok held op := match op with
    | .write ws => World.ownIds c ws = true ∧ (∀ r, .agentRun r ∈ locksOf ws → own r) ∧
        ∀ l ∈ locksOf ws, l ∈ held ∨ l.isRun = true ∨ ∀ k ∈ held, k.isRun = true ∨ k.rank < l.rank
    | _ => True
  next held op r held' := Ledger.Fits op r ∧ held' = holding held op r

/-- The statement inserts under an id of session `c`, and needs no locks but these. -/
structure Write.Within (c : Nat) (K : Set Lock) (x : Write S) : Prop where
  own : ∀ row, x = .insert row → row.id.session = c
  lock : ∀ l, x.lock? = some l → l ∈ K

/-- The statement that a flush emits for the object, if any, needs no locks but these. -/
def Tracked.Within {ρ : Type} (c : Nat) (K : Set Lock) (dirty : Tracked ρ → Option (Write S))
    (o : Tracked ρ) : Prop := ∀ x, dirty o = some x → x.Within c K

/-- The session holds no locks but these, and all that is pending needs no others. -/
structure Claimed (c : Nat) (K : Set Lock) (σ : Session S) (held : Set Lock) : Prop where
  conn : σ.conn = c
  tickets : ∀ o ∈ σ.tickets, o.Within c K (dirtyTicket (S := S))
  agentRuns : ∀ o ∈ σ.agentRuns, o.Within c K (dirtyAgentRun (S := S))
  webhooks : ∀ o ∈ σ.webhooks, o.Within c K (dirtyWebhook (S := S))
  deliveries : ∀ o ∈ σ.deliveries, o.Within c K (dirtyDelivery (S := S))
  new : ∀ row ∈ σ.new, (Write.insert row).Within c K
  held : held ⊆ K

/-- The locks of the session's own runs, and one more. -/
structure Narrow (own : Uuid → Prop) (K : Set Lock) : Prop where
  runs : ∀ r, .agentRun r ∈ K → own r
  single : ∀ k ∈ K, ∀ l ∈ K, k = l ∨ k.isRun = true ∨ l.isRun = true

theorem Narrow.empty : Narrow own ∅ := by
  refine ⟨fun r hr => ?_, fun k hk => ?_⟩
  · cases hr
  · cases hk

theorem Narrow.singleton {l : Lock} (h : ∀ r, l = .agentRun r → own r) : Narrow own {l} := by
  refine ⟨fun r hr => h r (Set.mem_singleton_iff.mp hr).symm, fun k hk m hm => Or.inl ?_⟩
  rw [Set.mem_singleton_iff.mp hk, Set.mem_singleton_iff.mp hm]

theorem Narrow.run {runId : Uuid} (h : own runId) (ticketId : Uuid) :
    Narrow own {.agentRun runId, .ticket ticketId} := by
  refine ⟨fun r hr => ?_, fun k hk l hl => ?_⟩
  · rcases hr with hr | hr <;> cases hr
    exact h
  · rcases hk with rfl | rfl
    · exact Or.inr (Or.inl rfl)
    · rcases hl with rfl | rfl
      · exact Or.inr (Or.inr rfl)
      · exact Or.inl rfl

theorem Write.Within.mono {x : Write S} (h : x.Within c K) (hle : K ⊆ K') : x.Within c K' :=
  ⟨h.own, fun l hl => hle (h.lock l hl)⟩

theorem Write.within_update {x : Write S} {l : Lock} (hx : x.lock? = some l)
    (hupdate : ∀ row, x ≠ .insert row) (hl : l ∈ K) : x.Within c K := by
  refine ⟨fun row hrow => absurd hrow (hupdate row), fun k hk => ?_⟩
  obtain rfl : l = k := Option.some.inj (hx.symm.trans hk)
  exact hl

theorem Write.within_insert (hid : row.id.session = c)
    (hlock : ∀ l, (Write.insert row).lock? = some l → l ∈ K) : (Write.insert row).Within c K := by
  refine ⟨fun row' hrow => ?_, hlock⟩
  cases hrow
  exact hid

/-! Tracked objects -/

theorem within_ticket {o : Tracked Ticket} (h : .ticket o.loaded.id ∈ K) :
    o.Within c K (dirtyTicket (S := S)) := by
  intro x hx
  simp only [dirtyTicket] at hx
  split at hx <;> cases hx
  exact Write.within_update rfl (fun _ hne => by cases hne) h

theorem within_agentRun {o : Tracked AgentRun} (h : .agentRun o.loaded.id ∈ K) :
    o.Within c K (dirtyAgentRun (S := S)) := by
  intro x hx
  simp only [dirtyAgentRun] at hx
  split at hx <;> cases hx
  exact Write.within_update rfl (fun _ hne => by cases hne) h

theorem within_webhook {o : Tracked Webhook} (h : .webhook o.loaded.id ∈ K) :
    o.Within c K (dirtyWebhook (S := S)) := by
  intro x hx
  simp only [dirtyWebhook] at hx
  split at hx <;> cases hx
  exact Write.within_update rfl (fun _ hne => by cases hne) h

theorem within_delivery {o : Tracked WebhookDelivery} (h : .delivery o.loaded.id ∈ K) :
    o.Within c K (dirtyDelivery (S := S)) := by
  intro x hx
  simp only [dirtyDelivery] at hx
  split at hx <;> cases hx
  exact Write.within_update rfl (fun _ hne => by cases hne) h

theorem Tracked.Within.of_clean {ρ : Type} {dirty : Tracked ρ → Option (Write S)} {o : Tracked ρ}
    (h : dirty o = none) : o.Within c K dirty := by
  intro x hx
  rw [h] at hx
  cases hx

namespace Claimed

theorem mono (h : Claimed c K σ held) (hle : K ⊆ K') : Claimed c K' σ held :=
  ⟨h.conn, fun o ho x hx => (h.tickets o ho x hx).mono hle,
    fun o ho x hx => (h.agentRuns o ho x hx).mono hle,
    fun o ho x hx => (h.webhooks o ho x hx).mono hle,
    fun o ho x hx => (h.deliveries o ho x hx).mono hle, fun row hrow => (h.new row hrow).mono hle,
    h.held.trans hle⟩

theorem start : Claimed c K (.start c : Session S) ∅ := by
  constructor <;> simp [Session.start]

theorem expired (h : Claimed c K σ held) : Claimed c ∅ σ.expired ∅ := by
  refine ⟨h.conn, ?_, ?_, ?_, ?_, ?_, Set.empty_subset _⟩ <;> exact fun _ hmem => by cases hmem

theorem drop (h : Claimed c K σ held) : Claimed c K σ ∅ :=
  ⟨h.conn, h.tickets, h.agentRuns, h.webhooks, h.deliveries, h.new, Set.empty_subset _⟩

theorem draw (h : Claimed c K σ held) (n : Nat) : Claimed c K { σ with draws := n } held :=
  ⟨h.conn, h.tickets, h.agentRuns, h.webhooks, h.deliveries, h.new, h.held⟩

theorem add (h : Claimed c K σ held) (hrow : (Write.insert row).Within c K) :
    Claimed c K { σ with new := σ.new ++ [row] } held := by
  refine ⟨h.conn, h.tickets, h.agentRuns, h.webhooks, h.deliveries, fun x hx => ?_, h.held⟩
  rcases List.mem_append.mp hx with hx | hx
  · exact h.new x hx
  · rwa [List.mem_singleton.mp hx]

theorem within_map {ρ : Type} {dirty : Tracked ρ → Option (Write S)} {os : List (Tracked ρ)}
    {key : ρ → Uuid} {id : Uuid} {g : Tracked ρ → Tracked ρ} (h : ∀ o ∈ os, o.Within c K dirty)
    (hg : ∀ o, key o.loaded = id → (g o).Within c K dirty) :
    ∀ o ∈ os.map (fun o => if key o.loaded = id then g o else o), o.Within c K dirty := by
  intro o ho
  obtain ⟨o', ho', rfl⟩ := List.mem_map.mp ho
  split
  · rename_i hid
    exact hg o' hid
  · exact h o' ho'

theorem putTicket (h : Claimed c K σ held) {id : Uuid} {g : Tracked Ticket → Tracked Ticket}
    (hg : ∀ o : Tracked Ticket, o.loaded.id = id → (g o).Within c K (dirtyTicket (S := S))) :
    Claimed c K (σ.putTicket id g) held :=
  ⟨h.conn, within_map h.tickets hg, h.agentRuns, h.webhooks, h.deliveries, h.new, h.held⟩

theorem putAgentRun (h : Claimed c K σ held) {id : Uuid} {g : Tracked AgentRun → Tracked AgentRun}
    (hg : ∀ o : Tracked AgentRun, o.loaded.id = id → (g o).Within c K (dirtyAgentRun (S := S))) :
    Claimed c K (σ.putAgentRun id g) held :=
  ⟨h.conn, h.tickets, within_map h.agentRuns hg, h.webhooks, h.deliveries, h.new, h.held⟩

theorem putWebhook (h : Claimed c K σ held) {id : Uuid} {g : Tracked Webhook → Tracked Webhook}
    (hg : ∀ o : Tracked Webhook, o.loaded.id = id → (g o).Within c K (dirtyWebhook (S := S))) :
    Claimed c K (σ.putWebhook id g) held :=
  ⟨h.conn, h.tickets, h.agentRuns, within_map h.webhooks hg, h.deliveries, h.new, h.held⟩

theorem putDelivery (h : Claimed c K σ held) {id : Uuid}
    {g : Tracked WebhookDelivery → Tracked WebhookDelivery}
    (hg : ∀ o : Tracked WebhookDelivery, o.loaded.id = id →
      (g o).Within c K (dirtyDelivery (S := S))) : Claimed c K (σ.putDelivery id g) held :=
  ⟨h.conn, h.tickets, h.agentRuns, h.webhooks, within_map h.deliveries hg, h.new, h.held⟩

theorem pending (h : Claimed c K σ held) {x : Write S} (hx : x ∈ σ.pending) : x.Within c K := by
  simp only [Session.pending, List.mem_append, List.mem_filterMap, List.mem_map] at hx
  rcases hx with (((⟨o, ho, hx⟩ | ⟨o, ho, hx⟩) | ⟨o, ho, hx⟩) | ⟨o, ho, hx⟩) | ⟨row, hrow, rfl⟩
  · exact h.tickets o ho x hx
  · exact h.agentRuns o ho x hx
  · exact h.webhooks o ho x hx
  · exact h.deliveries o ho x hx
  · exact h.new row hrow

theorem locks (h : Claimed c K σ held) : locksOf σ.pending ⊆ K := by
  rintro l ⟨x, hx, hl⟩
  exact (h.pending hx).lock l hl

/-- What is pending may be sent. -/
theorem ok (h : Claimed c K σ held) (hK : Narrow own K) :
    (claimant own c).ok held (.write σ.pending : Op S) := by
  have hown : World.ownIds c σ.pending = true := by
    refine List.all_eq_true.mpr fun x hx => ?_
    have hwithin := h.pending hx
    cases x with
    | insert row => exact beq_iff_eq.mpr (hwithin.own row rfl)
    | _ => rfl
  refine ⟨hown, fun r hr => hK.runs r (h.locks hr), fun l hl => ?_⟩
  by_cases hheld : l ∈ held
  · exact Or.inl hheld
  · right
    by_cases hrun : l.isRun = true
    · exact Or.inl hrun
    · right
      intro k hk
      rcases hK.single k (h.held hk) l (h.locks hl) with rfl | hother | hself
      · exact absurd hk hheld
      · exact Or.inl hother
      · exact absurd hself hrun

theorem adopt (h : Claimed c K σ held) (row : Row S) : Claimed c K (σ.adopt row) held := by
  have hsnoc : ∀ {ρ : Type} {dirty : Tracked ρ → Option (Write S)} {os : List (Tracked ρ)} (r : ρ),
      dirty ⟨r, r⟩ = none → (∀ o ∈ os, o.Within c K dirty) →
        ∀ o ∈ os ++ [⟨r, r⟩], o.Within c K dirty := by
    intro ρ dirty os r hclean hos o ho
    rcases List.mem_append.mp ho with ho | ho
    · exact hos o ho
    · rw [List.mem_singleton.mp ho]
      exact .of_clean hclean
  cases row with
  | ticket t =>
    exact ⟨h.conn, hsnoc t (dirtyTicket_clean t) h.tickets, h.agentRuns, h.webhooks, h.deliveries,
      h.new, h.held⟩
  | agentRun r =>
    exact ⟨h.conn, h.tickets, hsnoc r (dirtyAgentRun_clean r) h.agentRuns, h.webhooks, h.deliveries,
      h.new, h.held⟩
  | webhook v =>
    exact ⟨h.conn, h.tickets, h.agentRuns, hsnoc v (dirtyWebhook_clean v) h.webhooks, h.deliveries,
      h.new, h.held⟩
  | delivery d =>
    exact ⟨h.conn, h.tickets, h.agentRuns, h.webhooks, hsnoc d (dirtyDelivery_clean d) h.deliveries,
      h.new, h.held⟩
  | _ => exact h

/-- A flush leaves nothing pending. -/
theorem flushed (h : Claimed c K σ held) {held' : Set Lock} (hheld : held' ⊆ K') :
    Claimed c K' σ.flushed held' := by
  have hclean : ∀ {ρ : Type} {dirty : Tracked ρ → Option (Write S)} {os : List (Tracked ρ)},
      (∀ r, dirty ⟨r, r⟩ = none) → ∀ o ∈ os.map Tracked.flushed, o.Within c K' dirty := by
    intro ρ dirty os hnone o ho
    obtain ⟨o', -, rfl⟩ := List.mem_map.mp ho
    exact .of_clean (hnone o'.cur)
  have hfold : ∀ (rows : List (Row S)) (σ : Session S), Claimed c K' σ held' →
      Claimed c K' (rows.foldl Session.adopt σ) held' := by
    intro rows
    induction rows with
    | nil => exact fun _ h => h
    | cons row rows ih => exact fun σ hσ => ih _ (hσ.adopt row)
  refine hfold σ.new _ ⟨h.conn, hclean dirtyTicket_clean, hclean dirtyAgentRun_clean,
    hclean dirtyWebhook_clean, hclean dirtyDelivery_clean, fun _ hmem => ?_, hheld⟩
  cases hmem

/-- Where nothing is pending, no locks are needed. -/
theorem settled (h : Claimed c K σ held) (hnone : σ.pending = []) {held' : Set Lock}
    (hheld : held' ⊆ K') : Claimed c K' σ held' := by
  simp only [Session.pending, List.append_eq_nil_iff, List.filterMap_eq_nil_iff,
    List.map_eq_nil_iff] at hnone
  obtain ⟨⟨⟨⟨htickets, hruns⟩, hwebhooks⟩, hdeliveries⟩, hnew⟩ := hnone
  refine ⟨h.conn, fun o ho => .of_clean (htickets o ho), fun o ho => .of_clean (hruns o ho),
    fun o ho => .of_clean (hwebhooks o ho), fun o ho => .of_clean (hdeliveries o ho),
    fun row hrow => ?_, hheld⟩
  rw [hnew] at hrow
  cases hrow

theorem ok_other {op : Op S} (hop : ∀ ws, op ≠ .write ws) : (claimant own c).ok held op := by
  cases op with
  | write ws => exact absurd rfl (hop ws)
  | _ => trivial

/-- A call that sends no statements leaves the session with what it held, or with nothing. -/
theorem next {op : Op S} {r : Res op} {held' : Set Lock} (h : Claimed c K σ held)
    (hop : ∀ ws, op ≠ .write ws) (hnext : (claimant own c).next held op r held') :
    Claimed c K σ held' := by
  have hheld : holding held op r = held ∨ holding held op r = ∅ := by
    cases op with
    | query q => cases r <;> first | exact Or.inl rfl | exact Or.inr rfl
    | write ws => exact absurd rfl (hop ws)
    | commit => cases r <;> exact Or.inr rfl
    | rollback => cases r <;> exact Or.inr rfl
    | close => exact Or.inr rfl
    | _ => exact Or.inl rfl
  rw [hnext.2]
  rcases hheld with hsame | hnone
  · rwa [hsame]
  · rw [hnone]
    exact h.drop

end Claimed

/-! Coroutines that make do with some locks -/

/-- The coroutine needs no locks but these. -/
def M.Needs (own : Uuid → Prop) (c : Nat) (K : Set Lock) (p : M S α) : Prop :=
  ∀ σ held, Claimed c K σ held →
    p.Triple (claimant own c) (fun _ => Claimed c K) (fun _ => Claimed c K) σ held

namespace M.Needs

theorem pure (a : α) : (Pure.pure a : M S α).Needs own c K := fun _ _ h => h

theorem raise (e : Err) : (M.raise e : M S α).Needs own c K := fun _ _ h => h

theorem bind {p : M S β} {f : β → M S α} (hp : p.Needs own c K) (hf : ∀ b, (f b).Needs own c K) :
    (p >>= f).Needs own c K := by
  intro σ held h
  rw [M.triple_bind]
  exact M.triple_mono (hp σ held h) (fun b σ' held' h' => hf b σ' held' h') (fun _ _ _ h' => h')

theorem map {p : M S β} {f : β → α} (hp : p.Needs own c K) : (f <$> p).Needs own c K :=
  bind hp fun b => pure (f b)

theorem ite {b : Prop} [Decidable b] {p q : M S α} (hp : p.Needs own c K) (hq : q.Needs own c K) :
    (if b then p else q).Needs own c K := by
  split
  · exact hp
  · exact hq

theorem except {p : M S α} {h : Err → M S α} (hp : p.Needs own c K)
    (hh : ∀ e, (h e).Needs own c K) : (M.except p h).Needs own c K := by
  intro σ held hσ
  rw [M.triple_except]
  exact M.triple_mono (hp σ held hσ) (fun _ _ _ h' => h') (fun e σ' held' h' => hh e σ' held' h')

theorem catching {p : M S α} {status : Err → Option (Nat × String)} (hp : p.Needs own c K) :
    (Api.catching p status).Needs own c K := by
  refine hp.except fun e => ?_
  cases status e <;> exact raise _

/-- A coroutine that draws an id first. -/
theorem draw {f : Uuid → M S α} (hf : ∀ id, id.session = c → (f id).Needs own c K) :
    (uuid4 >>= f).Needs own c K := by
  intro σ held h
  rw [M.triple_bind, triple_uuid4]
  exact hf _ h.conn _ _ (h.draw _)

theorem of_readOnly {p : M S α} (hp : p.ReadOnly) : p.Needs own c K := by
  intro σ held h
  have hobeys := Framework.Program.obeys_of_uses (O := claimant own c) (hp σ) h
    fun op held' hop h' => by
      have hwrite : ∀ ws, op ≠ .write ws := by
        rintro ws rfl
        exact hop
      exact ⟨Claimed.ok_other hwrite, fun r held'' hn => h'.next hwrite hn⟩
  refine Framework.Program.obeys_mono hobeys ?_
  rintro ⟨_ | a, σ'⟩ held' hx
  · obtain ⟨rfl, h'⟩ := hx
    exact h'
  · obtain ⟨rfl, h'⟩ := hx
    exact h'

end M.Needs

theorem call_needs (op : Op S) (k : Res op → Except Err α) (hop : ∀ ws, op ≠ .write ws) :
    M.Needs own c K fun σ => .call op fun r => .ret (k r, σ) := by
  intro σ held h
  refine ⟨Claimed.ok_other hop, fun r held' hn => ?_⟩
  have hnext := h.next hop hn
  have hret : ∀ x : Except Err α, M.Triple (claimant own c) (fun σ => .ret (x, σ))
      (fun _ => Claimed c K) (fun _ => Claimed c K) σ held' := by
    intro x
    cases x with
    | ok a => exact hnext
    | error e => exact hnext
  exact hret (k r)

theorem query_needs (q : Query S) : (query q).Needs own c K :=
  call_needs (.query q) id fun _ hne => by cases hne

theorem clock_needs : (clock : M S Time).Needs own c K :=
  call_needs .clock Except.ok fun _ hne => by cases hne

theorem salt_needs : (salt : M S Nat).Needs own c K :=
  call_needs .salt Except.ok fun _ hne => by cases hne

theorem post_needs (url : String) (body : List Char) (headers : List (String × String)) :
    (post url body headers : M S Nat).Needs own c K := call_needs (.post url body headers) id fun _ hne => by cases hne

theorem aclose_needs : (aclose : M S Unit).Needs own c K := call_needs .aclose id fun _ hne => by cases hne

theorem enqueue_needs (task : Task) : (enqueue task : M S Unit).Needs own c K :=
  call_needs (.enqueue task) id fun _ hne => by cases hne

theorem embedCall_needs (texts : List String) : (embedCall texts : M S _).Needs own c K :=
  call_needs (.embed texts) id fun _ hne => by cases hne

theorem add_needs (hrow : (Write.insert row).Within c K) : (add row).Needs own c K :=
  fun _ _ h => h.add hrow

theorem setTicket_needs {id : Uuid} (hid : .ticket id ∈ K) (p : TicketPatch) :
    (setTicket id p : M S Unit).Needs own c K := by
  intro σ held h
  rw [triple_setTicket]
  exact h.putTicket fun o ho => within_ticket (by rwa [ho])

theorem setAgentRun_needs {id : Uuid} (hid : .agentRun id ∈ K) (p : AgentRunPatch) :
    (setAgentRun id p : M S Unit).Needs own c K := by
  intro σ held h
  rw [triple_setAgentRun]
  exact h.putAgentRun fun o ho => within_agentRun (by rwa [ho])

theorem setWebhook_needs {id : Uuid} (hid : .webhook id ∈ K) (p : WebhookPatch) :
    (setWebhook id p : M S Unit).Needs own c K := by
  intro σ held h
  rw [triple_setWebhook]
  exact h.putWebhook fun o ho => within_webhook (by rwa [ho])

theorem setDelivery_needs {id : Uuid} (hid : .delivery id ∈ K) (p : DeliveryPatch) :
    (setDelivery id p : M S Unit).Needs own c K := by
  intro σ held h
  rw [triple_setDelivery]
  exact h.putDelivery fun o ho => within_delivery (by rwa [ho])

theorem getTicketRow_needs (id : Uuid) : (getTicketRow id : M S _).Needs own c K := by
  intro σ held h
  rw [triple_getTicketRow]
  refine ⟨fun _ _ => h, fun _ => ⟨trivial, fun e held' hn => ?_, fun held' hn => ?_, ?_⟩⟩
  · exact h.next (fun _ hne => by cases hne) hn
  · exact h.next (fun _ hne => by cases hne) hn
  · exact fun t held' hn => (h.next (fun _ hne => by cases hne) hn).adopt (.ticket t)

theorem getAgentRun_needs (id : Uuid) : (getAgentRun id : M S _).Needs own c K := by
  intro σ held h
  rw [triple_getAgentRun]
  refine ⟨fun _ _ => h, fun _ => ⟨trivial, fun e held' hn => ?_, fun held' hn => ?_, ?_⟩⟩
  · exact h.next (fun _ hne => by cases hne) hn
  · exact h.next (fun _ hne => by cases hne) hn
  · exact fun r held' hn => (h.next (fun _ hne => by cases hne) hn).adopt (.agentRun r)

theorem getDelivery_needs (id : Uuid) : (getDelivery id : M S _).Needs own c K := by
  intro σ held h
  rw [triple_getDelivery]
  refine ⟨fun _ _ => h, fun _ => ⟨trivial, fun e held' hn => ?_, fun held' hn => ?_, ?_⟩⟩
  · exact h.next (fun _ hne => by cases hne) hn
  · exact h.next (fun _ hne => by cases hne) hn
  · exact fun d held' hn => (h.next (fun _ hne => by cases hne) hn).adopt (.delivery d)

theorem identify_needs (v : Webhook) : (identify v : M S _).Needs own c K := by
  intro σ held h
  rw [triple_identify]
  exact ⟨fun _ _ => h, fun _ => h.adopt (.webhook v)⟩

theorem getWebhook_needs (id : Uuid) : (getWebhook id : M S _).Needs own c K := by
  intro σ held h
  rw [triple_getWebhook]
  refine ⟨fun _ _ => h, fun _ => ⟨trivial, fun e held' hn => ?_, fun held' hn => ?_, ?_⟩⟩
  · exact h.next (fun _ hne => by cases hne) hn
  · exact h.next (fun _ hne => by cases hne) hn
  · exact fun v held' hn => identify_needs v σ held' (h.next (fun _ hne => by cases hne) hn)

theorem getConfig_needs (organizationId : Uuid) :
    (WebhookService.getConfig organizationId : M S _).Needs own c K := by
  refine (query_needs _).bind fun r => ?_
  cases r with
  | none => exact .pure none
  | some v => exact (identify_needs v).map

theorem ticketAttrs_needs (id : Uuid) : (ticketAttrs id : M S _).Needs own c K := by
  intro σ held h
  rw [triple_ticketAttrs]
  exact ⟨fun _ _ => h, fun _ => h⟩

theorem agentRunAttrs_needs (id : Uuid) : (agentRunAttrs id : M S _).Needs own c K := by
  intro σ held h
  rw [triple_agentRunAttrs]
  exact ⟨fun _ _ => h, fun _ => h⟩

theorem deliveryAttrs_needs (id : Uuid) : (deliveryAttrs id : M S _).Needs own c K := by
  intro σ held h
  rw [triple_deliveryAttrs]
  exact ⟨fun _ _ => h, fun _ => h⟩

theorem refreshTicket_needs (id : Uuid) : (refreshTicket id : M S _).Needs own c K := by
  refine (query_needs _).bind fun r => ?_
  cases r with
  | none => exact .raise _
  | some t =>
    refine M.Needs.bind (fun σ held h => ?_) fun _ => .pure t
    exact h.putTicket fun o _ => .of_clean (dirtyTicket_clean t)

theorem refreshAgentRun_needs (id : Uuid) : (refreshAgentRun id : M S _).Needs own c K := by
  refine (query_needs _).bind fun r => ?_
  cases r with
  | none => exact .raise _
  | some r =>
    refine M.Needs.bind (fun σ held h => ?_) fun _ => .pure r
    exact h.putAgentRun fun o _ => .of_clean (dirtyAgentRun_clean r)

theorem refreshWebhook_needs (id : Uuid) : (refreshWebhook id : M S _).Needs own c K := by
  refine (query_needs _).bind fun r => ?_
  cases r with
  | none => exact .raise _
  | some v =>
    refine M.Needs.bind (fun σ held h => ?_) fun _ => .pure v
    exact h.putWebhook fun o _ => .of_clean (dirtyWebhook_clean v)

theorem refreshDelivery_needs (id : Uuid) : (refreshDelivery id : M S _).Needs own c K := by
  refine (query_needs _).bind fun r => ?_
  cases r with
  | none => exact .raise _
  | some d =>
    refine M.Needs.bind (fun σ held h => ?_) fun _ => .pure d
    exact h.putDelivery fun o _ => .of_clean (dirtyDelivery_clean d)

theorem refreshUser_needs (id : Uuid) : (refreshUser id : M S _).Needs own c K := by
  refine (query_needs _).bind fun r => ?_
  cases r with
  | none => exact .raise _
  | some u => exact .pure u

theorem refreshDocument_needs (id : Uuid) : (refreshDocument id : M S _).Needs own c K := by
  refine (query_needs _).bind fun r => ?_
  cases r with
  | none => exact .raise _
  | some d => exact .pure d

/-! Flushes and commits -/

/-- A flush locks what is pending. -/
theorem flush_triple (hK : Narrow own K) (h : Claimed c K σ held) :
    (flush : M S Unit).Triple (claimant own c)
      (fun _ σ' held' => Claimed c K σ' held' ∧ ∀ {K'}, Claimed c K' σ' ∅)
      (fun _ => Claimed c K) σ held := by
  rw [triple_flush]
  by_cases hnone : σ.pending = []
  · rw [hnone, flushes_nil]
    exact ⟨h, h.settled hnone (Set.empty_subset _)⟩
  · rw [flushes_of_ne_nil hnone]
    refine ⟨h.ok hK, fun e held' hn => ?_, fun held' hn => ?_⟩
    · rw [hn.2]
      exact h.drop
    · rw [hn.2]
      exact ⟨h.flushed (Set.union_subset h.held h.locks), h.flushed (Set.empty_subset _)⟩

theorem flush_needs (hK : Narrow own K) : (flush : M S Unit).Needs own c K :=
  fun _ _ h => M.triple_mono (flush_triple hK h) (fun _ _ _ h' => h'.1) (fun _ _ _ h' => h')

/-- A commit gives all locks back. -/
theorem commit_triple (hK : Narrow own K) (h : Claimed c K σ held) :
    (commit : M S Unit).Triple (claimant own c) (fun _ => Claimed c ∅) (fun _ => Claimed c K) σ
      held := by
  unfold commit
  rw [M.triple_bind]
  refine M.triple_mono (flush_triple hK h) (fun _ σ' held' h' => ?_) (fun _ _ _ h' => h')
  rw [triple_sendCommit]
  refine ⟨trivial, fun e held'' hn => ?_, fun r held'' hn => ?_⟩
  · rw [hn.2]
    exact h'.2
  · rw [hn.2]
    exact h'.2

theorem commit_needs (hK : Narrow own K) : (commit : M S Unit).Needs own c K :=
  fun _ _ h => M.triple_mono (commit_triple hK h) (fun _ _ _ h' => h'.mono (Set.empty_subset _))
    (fun _ _ _ h' => h')

end AgentDesk

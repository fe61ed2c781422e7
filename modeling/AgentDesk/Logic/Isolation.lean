import AgentDesk.Logic.Tenancy
import AgentDesk.Logic.Triple
import AgentDesk.Api.Jobs

namespace AgentDesk

open Framework (Observer)

variable {S α β : Type} {cfg : Config S} {organizationId : Uuid} {c : Nat} {known known' : Set RowKey}
  {σ : Session S} {row : Row S}

/-! What a session of the organization is told and holds -/

/-- The row is the organization's, and the session knows it and the row that it belongs to. -/
structure Row.Held (organizationId : Uuid) (c : Nat) (known : Set RowKey) (row : Row S) : Prop where
  filed : row.Filed organizationId c known
  key : Knows c known row.key

/-- The row that a lookup returns. -/
def shown : (op : Op S) → Res op → Option (Row S)
  | .query (.user _), .ok r => r.map .user
  | .query (.ticket _), .ok r => r.map .ticket
  | .query (.agentRun _), .ok r => r.map .agentRun
  | .query (.webhookOf _), .ok r => r.map .webhook
  | .query (.webhook _), .ok r => r.map .webhook
  | .query (.delivery _), .ok r => r.map .delivery
  | .query (.document _), .ok r => r.map .document
  | _, _ => none

/-- The row that a message names. -/
def Task.key : Task → RowKey
  | .runAgent runId => ⟨.agentRun, runId⟩
  | .deliverWebhook deliveryId => ⟨.delivery, deliveryId⟩

/-- The observer of a session that keeps to the rows of one organization. -/
def tenant (organizationId : Uuid) (c : Nat) : Observer (Op S) Res (Set RowKey) where
  ok known op := match op with
    | .query q => q.Local organizationId c known
    | .write ws => ∀ x ∈ ws, x.Local organizationId c known
    | .enqueue task => Knows c known task.key
    | _ => True
  next known op r known' := known ⊆ known' ∧
    ∀ row, shown op r = some row → row.Held organizationId c known'

/-- A tracked object: its row as it was loaded and as it is now. -/
def Tracked.Held {ρ : Type} (organizationId : Uuid) (c : Nat) (known : Set RowKey) (f : ρ → Row S)
    (o : Tracked ρ) : Prop :=
  (f o.loaded).Held organizationId c known ∧ (f o.cur).Held organizationId c known

/-- The session tracks rows of the organization only, and adds none but the organization's. -/
structure Homed (organizationId : Uuid) (c : Nat) (known : Set RowKey) (σ : Session S) : Prop where
  conn : σ.conn = c
  tickets : ∀ o ∈ σ.tickets, o.Held organizationId c known (Row.ticket : Ticket → Row S)
  agentRuns : ∀ o ∈ σ.agentRuns, o.Held organizationId c known (Row.agentRun : AgentRun → Row S)
  webhooks : ∀ o ∈ σ.webhooks, o.Held organizationId c known (Row.webhook : Webhook → Row S)
  deliveries : ∀ o ∈ σ.deliveries,
    o.Held organizationId c known (Row.delivery : WebhookDelivery → Row S)
  new : ∀ row ∈ σ.new, (Write.insert row).Local organizationId c known

theorem Row.Filed.mono (h : row.Filed organizationId c known) (hle : known ⊆ known') :
    row.Filed organizationId c known' :=
  ⟨h.organization, fun parent hparent => (h.parent parent hparent).mono hle⟩

theorem Row.Held.mono (h : row.Held organizationId c known) (hle : known ⊆ known') :
    row.Held organizationId c known' := ⟨h.filed.mono hle, h.key.mono hle⟩

theorem Write.Local.mono {x : Write S} (h : x.Local organizationId c known) (hle : known ⊆ known') :
    x.Local organizationId c known' := by
  refine ⟨h.key.mono hle, fun row hrow => ?_⟩
  obtain ⟨hid, hentity, hfiled⟩ := h.row row hrow
  exact ⟨hid, hentity, hfiled.mono hle⟩

theorem Tracked.Held.mono {ρ : Type} {f : ρ → Row S} {o : Tracked ρ}
    (h : o.Held organizationId c known f) (hle : known ⊆ known') :
    o.Held organizationId c known' f := ⟨h.1.mono hle, h.2.mono hle⟩

namespace Homed

theorem mono (h : Homed organizationId c known σ) (hle : known ⊆ known') :
    Homed organizationId c known' σ :=
  ⟨h.conn, fun o ho => (h.tickets o ho).mono hle, fun o ho => (h.agentRuns o ho).mono hle,
    fun o ho => (h.webhooks o ho).mono hle, fun o ho => (h.deliveries o ho).mono hle,
    fun row hrow => (h.new row hrow).mono hle⟩

theorem start : Homed organizationId c known (.start c : Session S) := by
  constructor <;> simp [Session.start]

theorem expired (h : Homed organizationId c known σ) : Homed organizationId c known σ.expired := by
  refine ⟨h.conn, ?_, ?_, ?_, ?_, ?_⟩ <;> exact fun _ hmem => by cases hmem

theorem draw (h : Homed organizationId c known σ) (n : Nat) :
    Homed organizationId c known { σ with draws := n } :=
  ⟨h.conn, h.tickets, h.agentRuns, h.webhooks, h.deliveries, h.new⟩

theorem add (h : Homed organizationId c known σ)
    (hrow : (Write.insert row).Local organizationId c known) :
    Homed organizationId c known { σ with new := σ.new ++ [row] } := by
  refine ⟨h.conn, h.tickets, h.agentRuns, h.webhooks, h.deliveries, fun x hx => ?_⟩
  rcases List.mem_append.mp hx with hx | hx
  · exact h.new x hx
  · rwa [List.mem_singleton.mp hx]

theorem held_of_find {ρ : Type} {f : ρ → Row S} {os : List (Tracked ρ)} {key : ρ → Uuid} {id : Uuid}
    {o : Tracked ρ} (h : ∀ o ∈ os, o.Held organizationId c known f)
    (ho : os.find? (fun o => key o.loaded == id) = some o) :
    o.Held organizationId c known f ∧ key o.loaded = id :=
  ⟨h o (List.mem_of_find?_eq_some ho), by simpa using List.find?_some ho⟩

theorem held_map {ρ : Type} {f : ρ → Row S} {os : List (Tracked ρ)} {g : Tracked ρ → Tracked ρ}
    (h : ∀ o ∈ os, o.Held organizationId c known f)
    (hg : ∀ o, o.Held organizationId c known f → (g o).Held organizationId c known f) :
    ∀ o ∈ os.map g, o.Held organizationId c known f := by
  intro o ho
  obtain ⟨o', ho', rfl⟩ := List.mem_map.mp ho
  exact hg o' (h o' ho')

theorem putTicket (h : Homed organizationId c known σ) {id : Uuid} {g : Tracked Ticket → Tracked Ticket}
    (hg : ∀ o : Tracked Ticket, o.Held organizationId c known (Row.ticket : Ticket → Row S) →
      (g o).Held organizationId c known (Row.ticket : Ticket → Row S)) :
    Homed organizationId c known (σ.putTicket id g) := by
  refine ⟨h.conn, held_map h.tickets fun o ho => ?_, h.agentRuns, h.webhooks, h.deliveries, h.new⟩
  split
  · exact hg o ho
  · exact ho

theorem putAgentRun (h : Homed organizationId c known σ) {id : Uuid}
    {g : Tracked AgentRun → Tracked AgentRun}
    (hg : ∀ o : Tracked AgentRun, o.Held organizationId c known (Row.agentRun : AgentRun → Row S) →
      (g o).Held organizationId c known (Row.agentRun : AgentRun → Row S)) :
    Homed organizationId c known (σ.putAgentRun id g) := by
  refine ⟨h.conn, h.tickets, held_map h.agentRuns fun o ho => ?_, h.webhooks, h.deliveries, h.new⟩
  split
  · exact hg o ho
  · exact ho

theorem putWebhook (h : Homed organizationId c known σ) {id : Uuid}
    {g : Tracked Webhook → Tracked Webhook}
    (hg : ∀ o : Tracked Webhook, o.Held organizationId c known (Row.webhook : Webhook → Row S) →
      (g o).Held organizationId c known (Row.webhook : Webhook → Row S)) :
    Homed organizationId c known (σ.putWebhook id g) := by
  refine ⟨h.conn, h.tickets, h.agentRuns, held_map h.webhooks fun o ho => ?_, h.deliveries, h.new⟩
  split
  · exact hg o ho
  · exact ho

theorem putDelivery (h : Homed organizationId c known σ) {id : Uuid}
    {g : Tracked WebhookDelivery → Tracked WebhookDelivery}
    (hg : ∀ o : Tracked WebhookDelivery,
      o.Held organizationId c known (Row.delivery : WebhookDelivery → Row S) →
        (g o).Held organizationId c known (Row.delivery : WebhookDelivery → Row S)) :
    Homed organizationId c known (σ.putDelivery id g) := by
  refine ⟨h.conn, h.tickets, h.agentRuns, h.webhooks, held_map h.deliveries fun o ho => ?_, h.new⟩
  split
  · exact hg o ho
  · exact ho

theorem pending (h : Homed organizationId c known σ) :
    ∀ x ∈ σ.pending, x.Local organizationId c known := by
  intro x hx
  simp only [Session.pending, List.mem_append, List.mem_filterMap, List.mem_map] at hx
  have hlocal : ∀ {row : Row S} {x : Write S}, row.Held organizationId c known → x.key = row.key →
      (∀ new, x ≠ .insert new) → x.Local organizationId c known := by
    intro row x hrow hkey hne
    exact ⟨hkey ▸ hrow.key, fun new hnew => absurd hnew (hne new)⟩
  rcases hx with (((⟨o, ho, hx⟩ | ⟨o, ho, hx⟩) | ⟨o, ho, hx⟩) | ⟨o, ho, hx⟩) | ⟨row, hrow, rfl⟩
  · simp only [dirtyTicket] at hx
    split at hx <;> cases hx
    exact hlocal (h.tickets o ho).1 rfl fun _ hne => by cases hne
  · simp only [dirtyAgentRun] at hx
    split at hx <;> cases hx
    exact hlocal (h.agentRuns o ho).1 rfl fun _ hne => by cases hne
  · simp only [dirtyWebhook] at hx
    split at hx <;> cases hx
    exact hlocal (h.webhooks o ho).1 rfl fun _ hne => by cases hne
  · simp only [dirtyDelivery] at hx
    split at hx <;> cases hx
    exact hlocal (h.deliveries o ho).1 rfl fun _ hne => by cases hne
  · exact h.new row hrow

theorem adopt (h : Homed organizationId c known σ) (hheld : row.Held organizationId c known) :
    Homed organizationId c known (σ.adopt row) := by
  have hsnoc : ∀ {ρ : Type} {f : ρ → Row S} {os : List (Tracked ρ)} {r : ρ},
      (∀ o ∈ os, o.Held organizationId c known f) → (f r).Held organizationId c known →
        ∀ o ∈ os ++ [⟨r, r⟩], o.Held organizationId c known f := by
    intro ρ f os r hos hr o ho
    rcases List.mem_append.mp ho with ho | ho
    · exact hos o ho
    · rw [List.mem_singleton.mp ho]
      exact ⟨hr, hr⟩
  cases row with
  | ticket t => exact ⟨h.conn, hsnoc h.tickets hheld, h.agentRuns, h.webhooks, h.deliveries, h.new⟩
  | agentRun r => exact ⟨h.conn, h.tickets, hsnoc h.agentRuns hheld, h.webhooks, h.deliveries, h.new⟩
  | webhook v => exact ⟨h.conn, h.tickets, h.agentRuns, hsnoc h.webhooks hheld, h.deliveries, h.new⟩
  | delivery d => exact ⟨h.conn, h.tickets, h.agentRuns, h.webhooks, hsnoc h.deliveries hheld, h.new⟩
  | _ => exact h

theorem flushed (h : Homed organizationId c known σ) : Homed organizationId c known σ.flushed := by
  have hclean : ∀ {ρ : Type} {f : ρ → Row S} {os : List (Tracked ρ)},
      (∀ o ∈ os, o.Held organizationId c known f) →
        ∀ o ∈ os.map Tracked.flushed, o.Held organizationId c known f :=
    fun hos => held_map hos fun o ho => ⟨ho.2, ho.2⟩
  have hfold : ∀ (rows : List (Row S)) (σ : Session S), Homed organizationId c known σ →
      (∀ row ∈ rows, (Write.insert row).Local organizationId c known) →
        Homed organizationId c known (rows.foldl Session.adopt σ) := by
    intro rows
    induction rows with
    | nil => exact fun _ h _ => h
    | cons row rows ih =>
      intro σ hσ hrows
      have hrow := hrows row List.mem_cons_self
      exact ih _ (hσ.adopt ⟨(hrow.row row rfl).2.2, hrow.key⟩) fun r hr =>
        hrows r (List.mem_cons_of_mem row hr)
  refine hfold σ.new _ ?_ h.new
  exact ⟨h.conn, hclean h.tickets, hclean h.agentRuns, hclean h.webhooks, hclean h.deliveries,
    fun _ hmem => by cases hmem⟩

end Homed

/-! Coroutines that keep to the rows of the organization -/

/-- Whatever it has learned since, the coroutine keeps to the rows of the organization, and what it
returns satisfies `R`. -/
def M.Stays (organizationId : Uuid) (c : Nat) (known : Set RowKey) (p : M S α)
    (R : α → Set RowKey → Prop) : Prop :=
  ∀ known₁ σ, known ⊆ known₁ → Homed organizationId c known₁ σ →
    p.Triple (tenant organizationId c)
      (fun a σ' known' => known₁ ⊆ known' ∧ Homed organizationId c known' σ' ∧ R a known')
      (fun _ σ' known' => known₁ ⊆ known' ∧ Homed organizationId c known' σ') σ known₁

namespace M.Stays

variable {R : α → Set RowKey → Prop}

theorem pure {a : α} (h : ∀ known', known ⊆ known' → R a known') :
    (Pure.pure a : M S α).Stays organizationId c known R :=
  fun known₁ _ hle hσ => ⟨Set.Subset.rfl, hσ, h known₁ hle⟩

theorem raise (e : Err) : (M.raise e : M S α).Stays organizationId c known R :=
  fun _ _ _ hσ => ⟨Set.Subset.rfl, hσ⟩

theorem bind {p : M S β} {f : β → M S α} {T : β → Set RowKey → Prop}
    (hp : p.Stays organizationId c known T)
    (hf : ∀ b known', known ⊆ known' → T b known' → (f b).Stays organizationId c known' R) :
    (p >>= f).Stays organizationId c known R := by
  intro known₁ σ hle hσ
  rw [M.triple_bind]
  refine M.triple_mono (hp known₁ σ hle hσ) ?_ (fun _ _ _ h => h)
  intro b σ' known' hT
  obtain ⟨hle', hσ', hb⟩ := hT
  refine M.triple_mono (hf b known' (hle.trans hle') hb known' σ' Set.Subset.rfl hσ') ?_ ?_
  · exact fun a σ'' known'' h => ⟨hle'.trans h.1, h.2⟩
  · exact fun e σ'' known'' h => ⟨hle'.trans h.1, h.2⟩

theorem mono {p : M S α} {R' : α → Set RowKey → Prop} (hp : p.Stays organizationId c known R)
    (hle : known ⊆ known') (hR : ∀ a known₁, known' ⊆ known₁ → R a known₁ → R' a known₁) :
    p.Stays organizationId c known' R' := by
  intro known₁ σ hle₁ hσ
  refine M.triple_mono (hp known₁ σ (hle.trans hle₁) hσ) ?_ (fun _ _ _ h => h)
  exact fun a σ' known'' h => ⟨h.1, h.2.1, hR a known'' (hle₁.trans h.1) h.2.2⟩

theorem map {p : M S β} {f : β → α} {T : β → Set RowKey → Prop}
    (hp : p.Stays organizationId c known T) (hf : ∀ b known', T b known' → R (f b) known') :
    (f <$> p).Stays organizationId c known R := by
  intro known₁ σ hle hσ
  rw [M.triple_map]
  refine M.triple_mono (hp known₁ σ hle hσ) ?_ (fun _ _ _ h => h)
  exact fun b σ' known' h => ⟨h.1, h.2.1, hf b known' h.2.2⟩

theorem ite {b : Prop} [Decidable b] {p q : M S α} (hp : p.Stays organizationId c known R)
    (hq : q.Stays organizationId c known R) :
    (if b then p else q).Stays organizationId c known R := by
  split
  · exact hp
  · exact hq

theorem except {p : M S α} {h : Err → M S α} (hp : p.Stays organizationId c known R)
    (hh : ∀ e known', known ⊆ known' → (h e).Stays organizationId c known' R) :
    (M.except p h).Stays organizationId c known R := by
  intro known₁ σ hle hσ
  rw [M.triple_except]
  refine M.triple_mono (hp known₁ σ hle hσ) (fun _ _ _ h => h) ?_
  intro e σ' known' hfailed
  obtain ⟨hle', hσ'⟩ := hfailed
  refine M.triple_mono (hh e known' (hle.trans hle') known' σ' Set.Subset.rfl hσ') ?_ ?_
  · exact fun a σ'' known'' h => ⟨hle'.trans h.1, h.2⟩
  · exact fun e σ'' known'' h => ⟨hle'.trans h.1, h.2⟩

theorem catching {p : M S α} {status : Err → Option (Nat × String)}
    (hp : p.Stays organizationId c known R) :
    (Api.catching p status).Stays organizationId c known R := by
  refine hp.except fun e known' _ => ?_
  cases status e <;> exact raise _

end M.Stays

/-! Calls -/

theorem Query.Local.mono {q : Query S} (h : q.Local organizationId c known) (hle : known ⊆ known') :
    q.Local organizationId c known' := by
  cases q <;> first | exact h | exact Knows.mono h hle

/-- A statement of the session shows it rows of the organization only. -/
theorem query_stays (q : Query S) (hq : q.Local organizationId c known) :
    (query q).Stays organizationId c known fun r known' =>
      ∀ row, shown (.query q) (no_index (.ok r)) = some row → row.Held organizationId c known' := by
  intro known₁ σ hle hσ
  rw [triple_query]
  refine ⟨hq.mono hle, ?_, ?_⟩
  · exact fun e known' h => ⟨h.1, hσ.mono h.1⟩
  · exact fun r known' h => ⟨h.1, hσ.mono h.1, h.2⟩

theorem clock_stays : (clock : M S Time).Stays organizationId c known fun _ _ => True := by
  intro known₁ σ _ hσ
  rw [triple_clock]
  exact ⟨trivial, fun now known' h => ⟨h.1, hσ.mono h.1, trivial⟩⟩

theorem salt_stays : (salt : M S Nat).Stays organizationId c known fun _ _ => True := by
  intro known₁ σ _ hσ
  rw [triple_salt]
  exact ⟨trivial, fun n known' h => ⟨h.1, hσ.mono h.1, trivial⟩⟩

theorem embedCall_stays (texts : List String) :
    (embedCall texts : M S _).Stays organizationId c known fun _ _ => True := by
  intro known₁ σ _ hσ
  rw [triple_embedCall]
  exact ⟨trivial, fun e known' h => ⟨h.1, hσ.mono h.1⟩, fun r known' h => ⟨h.1, hσ.mono h.1, trivial⟩⟩

theorem chatCall_stays (request : ChatRequest) :
    (chatCall request : M S _).Stays organizationId c known fun _ _ => True := by
  intro known₁ σ _ hσ
  rw [triple_chatCall]
  exact ⟨trivial, fun e known' h => ⟨h.1, hσ.mono h.1⟩, fun r known' h => ⟨h.1, hσ.mono h.1, trivial⟩⟩

theorem post_stays (url : String) (body : List Char) (headers : List (String × String)) :
    (post url body headers : M S Nat).Stays organizationId c known fun _ _ => True := by
  intro known₁ σ _ hσ
  rw [triple_post]
  exact ⟨trivial, fun e known' h => ⟨h.1, hσ.mono h.1⟩, fun r known' h => ⟨h.1, hσ.mono h.1, trivial⟩⟩

theorem aclose_stays : (aclose : M S Unit).Stays organizationId c known fun _ _ => True := by
  intro known₁ σ _ hσ
  rw [triple_aclose]
  exact ⟨trivial, fun e known' h => ⟨h.1, hσ.mono h.1⟩, fun r known' h => ⟨h.1, hσ.mono h.1, trivial⟩⟩

theorem enqueue_stays {task : Task} (htask : Knows c known task.key) :
    (enqueue task : M S Unit).Stays organizationId c known fun _ _ => True := by
  intro known₁ σ hle hσ
  rw [triple_enqueue]
  exact ⟨htask.mono hle, fun e known' h => ⟨h.1, hσ.mono h.1⟩, fun r known' h => ⟨h.1, hσ.mono h.1, trivial⟩⟩

theorem rollback_stays : (rollback : M S Unit).Stays organizationId c known fun _ _ => True := by
  intro known₁ σ _ hσ
  rw [triple_rollback]
  refine ⟨trivial, fun e known' h => ⟨h.1, (hσ.mono h.1).expired⟩, ?_⟩
  exact fun r known' h => ⟨h.1, (hσ.mono h.1).expired, trivial⟩

theorem uuid4_stays : (uuid4 : M S Uuid).Stays organizationId c known fun id _ => id.session = c := by
  intro known₁ σ _ hσ
  rw [triple_uuid4]
  exact ⟨Set.Subset.rfl, hσ.draw _, hσ.conn⟩

theorem local_insert (hid : row.id.session = c) (hentity : row.entity ≠ .organization)
    (hrow : row.Filed organizationId c known) : (Write.insert row).Local organizationId c known := by
  refine ⟨Or.inr hid, ?_⟩
  rintro _ ⟨⟩
  exact ⟨hid, hentity, hrow⟩

theorem add_stays (h : (Write.insert row).Local organizationId c known) :
    (add row).Stays organizationId c known fun _ _ => True := by
  intro known₁ σ hle hσ
  rw [triple_add]
  exact ⟨Set.Subset.rfl, hσ.add (h.mono hle), trivial⟩

theorem flush_stays : (flush : M S Unit).Stays organizationId c known fun _ _ => True := by
  intro known₁ σ _ hσ
  rw [triple_flush]
  cases hpending : σ.pending with
  | nil => exact ⟨Set.Subset.rfl, hσ, trivial⟩
  | cons x ws =>
    rw [← hpending, flushes_of_ne_nil (by rw [hpending]; exact List.cons_ne_nil x ws)]
    refine ⟨hσ.pending, fun e known' h => ⟨h.1, hσ.mono h.1⟩, ?_⟩
    exact fun known' h => ⟨h.1, (hσ.mono h.1).flushed, trivial⟩

theorem commit_stays : (commit : M S Unit).Stays organizationId c known fun _ _ => True := by
  refine flush_stays.bind fun _ known' _ _ => ?_
  intro known₁ σ _ hσ
  rw [triple_sendCommit]
  exact ⟨trivial, fun e known' h => ⟨h.1, hσ.mono h.1⟩, fun r known' h => ⟨h.1, hσ.mono h.1, trivial⟩⟩

/-! Lookups and assignments -/

theorem getTicketRow_stays {id : Uuid} (hid : Knows c known ⟨.ticket, id⟩) :
    (getTicketRow id : M S _).Stays organizationId c known fun r known' =>
      ∀ t, r = some t → (Row.ticket t : Row S).Held organizationId c known' := by
  intro known₁ σ hle hσ
  rw [triple_getTicketRow]
  refine ⟨fun o ho => ?_, fun _ => ⟨hid.mono hle, ?_, ?_, ?_⟩⟩
  · refine ⟨Set.Subset.rfl, hσ, ?_⟩
    rintro t ⟨⟩
    exact (hσ.tickets o (List.mem_of_find?_eq_some ho)).2
  · exact fun e known' h => ⟨h.1, hσ.mono h.1⟩
  · exact fun known' h => ⟨h.1, hσ.mono h.1, fun t ht => by cases ht⟩
  · intro t known' h
    refine ⟨h.1, (hσ.mono h.1).adopt (h.2 _ rfl), ?_⟩
    rintro t' ⟨⟩
    exact h.2 _ rfl

theorem getAgentRun_stays {id : Uuid} (hid : Knows c known ⟨.agentRun, id⟩) :
    (getAgentRun id : M S _).Stays organizationId c known fun r known' =>
      ∀ run, r = some run → (Row.agentRun run : Row S).Held organizationId c known' := by
  intro known₁ σ hle hσ
  rw [triple_getAgentRun]
  refine ⟨fun o ho => ?_, fun _ => ⟨hid.mono hle, ?_, ?_, ?_⟩⟩
  · refine ⟨Set.Subset.rfl, hσ, ?_⟩
    rintro run ⟨⟩
    exact (hσ.agentRuns o (List.mem_of_find?_eq_some ho)).2
  · exact fun e known' h => ⟨h.1, hσ.mono h.1⟩
  · exact fun known' h => ⟨h.1, hσ.mono h.1, fun t ht => by cases ht⟩
  · intro run known' h
    refine ⟨h.1, (hσ.mono h.1).adopt (h.2 _ rfl), ?_⟩
    rintro run' ⟨⟩
    exact h.2 _ rfl

theorem getDelivery_stays {id : Uuid} (hid : Knows c known ⟨.delivery, id⟩) :
    (getDelivery id : M S _).Stays organizationId c known fun r known' =>
      ∀ d, r = some d → (Row.delivery d : Row S).Held organizationId c known' := by
  intro known₁ σ hle hσ
  rw [triple_getDelivery]
  refine ⟨fun o ho => ?_, fun _ => ⟨hid.mono hle, ?_, ?_, ?_⟩⟩
  · refine ⟨Set.Subset.rfl, hσ, ?_⟩
    rintro d ⟨⟩
    exact (hσ.deliveries o (List.mem_of_find?_eq_some ho)).2
  · exact fun e known' h => ⟨h.1, hσ.mono h.1⟩
  · exact fun known' h => ⟨h.1, hσ.mono h.1, fun t ht => by cases ht⟩
  · intro d known' h
    refine ⟨h.1, (hσ.mono h.1).adopt (h.2 _ rfl), ?_⟩
    rintro d' ⟨⟩
    exact h.2 _ rfl

theorem identify_stays {v : Webhook} (hv : (Row.webhook v : Row S).Held organizationId c known) :
    (identify v : M S _).Stays organizationId c known fun v' known' =>
      (Row.webhook v' : Row S).Held organizationId c known' := by
  intro known₁ σ hle hσ
  rw [triple_identify]
  refine ⟨fun o ho => ?_, fun _ => ?_⟩
  · exact ⟨Set.Subset.rfl, hσ, (hσ.webhooks o (List.mem_of_find?_eq_some ho)).2⟩
  · exact ⟨Set.Subset.rfl, hσ.adopt (hv.mono hle), hv.mono hle⟩

theorem getWebhook_stays {id : Uuid} (hid : Knows c known ⟨.webhook, id⟩) :
    (getWebhook id : M S _).Stays organizationId c known fun r known' =>
      ∀ v, r = some v → (Row.webhook v : Row S).Held organizationId c known' := by
  intro known₁ σ hle hσ
  rw [triple_getWebhook]
  refine ⟨fun o ho => ?_, fun _ => ⟨hid.mono hle, ?_, ?_, ?_⟩⟩
  · refine ⟨Set.Subset.rfl, hσ, ?_⟩
    rintro v ⟨⟩
    exact (hσ.webhooks o (List.mem_of_find?_eq_some ho)).2
  · exact fun e known' h => ⟨h.1, hσ.mono h.1⟩
  · exact fun known' h => ⟨h.1, hσ.mono h.1, fun t ht => by cases ht⟩
  · intro v known' h
    refine M.triple_mono (identify_stays (h.2 _ rfl) known' σ Set.Subset.rfl (hσ.mono h.1)) ?_ ?_
    · intro v' σ' known'' h'
      refine ⟨h.1.trans h'.1, h'.2.1, ?_⟩
      rintro _ ⟨⟩
      exact h'.2.2
    · exact fun e σ' known'' h' => ⟨h.1.trans h'.1, h'.2⟩

theorem getConfig_stays :
    (WebhookService.getConfig organizationId : M S _).Stays organizationId c known fun r known' =>
      ∀ v, r = some v → (Row.webhook v : Row S).Held organizationId c known' := by
  unfold WebhookService.getConfig
  refine (query_stays (.webhookOf organizationId) rfl).bind fun r known' _ hr => ?_
  cases r with
  | none => exact M.Stays.pure fun _ _ _ hnone => by cases hnone
  | some v =>
    refine (identify_stays (hr _ rfl)).map fun v' known'' hv' => ?_
    rintro _ ⟨⟩
    exact hv'

theorem ticketAttrs_stays (id : Uuid) :
    (ticketAttrs id : M S _).Stays organizationId c known fun t known' =>
      (Row.ticket t : Row S).Held organizationId c known' ∧ Knows c known' ⟨.ticket, id⟩ := by
  intro known₁ σ _ hσ
  rw [triple_ticketAttrs]
  refine ⟨fun o ho => ?_, fun _ => ⟨Set.Subset.rfl, hσ⟩⟩
  have hheld := hσ.tickets o (List.mem_of_find?_eq_some ho)
  have hid : o.loaded.id = id := by simpa using List.find?_some ho
  exact ⟨Set.Subset.rfl, hσ, hheld.2, hid ▸ hheld.1.key⟩

theorem agentRunAttrs_stays (id : Uuid) :
    (agentRunAttrs id : M S _).Stays organizationId c known fun r known' =>
      (Row.agentRun r : Row S).Held organizationId c known' := by
  intro known₁ σ _ hσ
  rw [triple_agentRunAttrs]
  refine ⟨fun o ho => ?_, fun _ => ⟨Set.Subset.rfl, hσ⟩⟩
  exact ⟨Set.Subset.rfl, hσ, (hσ.agentRuns o (List.mem_of_find?_eq_some ho)).2⟩

theorem deliveryAttrs_stays (id : Uuid) :
    (deliveryAttrs id : M S _).Stays organizationId c known fun d known' =>
      (Row.delivery d : Row S).Held organizationId c known' := by
  intro known₁ σ _ hσ
  rw [triple_deliveryAttrs]
  refine ⟨fun o ho => ?_, fun _ => ⟨Set.Subset.rfl, hσ⟩⟩
  exact ⟨Set.Subset.rfl, hσ, (hσ.deliveries o (List.mem_of_find?_eq_some ho)).2⟩

theorem setTicket_stays (id : Uuid) (p : TicketPatch) :
    (setTicket id p : M S Unit).Stays organizationId c known fun _ _ => True := by
  intro known₁ σ _ hσ
  rw [triple_setTicket]
  exact ⟨Set.Subset.rfl, hσ.putTicket fun o ho => ⟨ho.1, ⟨⟨ho.2.filed.organization,
    ho.2.filed.parent⟩, ho.2.key⟩⟩, trivial⟩

theorem setAgentRun_stays (id : Uuid) (p : AgentRunPatch) :
    (setAgentRun id p : M S Unit).Stays organizationId c known fun _ _ => True := by
  intro known₁ σ _ hσ
  rw [triple_setAgentRun]
  exact ⟨Set.Subset.rfl, hσ.putAgentRun fun o ho => ⟨ho.1, ⟨⟨ho.2.filed.organization,
    ho.2.filed.parent⟩, ho.2.key⟩⟩, trivial⟩

theorem setWebhook_stays (id : Uuid) (p : WebhookPatch) :
    (setWebhook id p : M S Unit).Stays organizationId c known fun _ _ => True := by
  intro known₁ σ _ hσ
  rw [triple_setWebhook]
  exact ⟨Set.Subset.rfl, hσ.putWebhook fun o ho => ⟨ho.1, ⟨⟨ho.2.filed.organization,
    ho.2.filed.parent⟩, ho.2.key⟩⟩, trivial⟩

theorem setDelivery_stays (id : Uuid) (p : DeliveryPatch) :
    (setDelivery id p : M S Unit).Stays organizationId c known fun _ _ => True := by
  intro known₁ σ _ hσ
  rw [triple_setDelivery]
  exact ⟨Set.Subset.rfl, hσ.putDelivery fun o ho => ⟨ho.1, ⟨⟨ho.2.filed.organization,
    ho.2.filed.parent⟩, ho.2.key⟩⟩, trivial⟩

theorem refreshTicket_stays {id : Uuid} (hid : Knows c known ⟨.ticket, id⟩) :
    (refreshTicket id : M S _).Stays organizationId c known fun t known' =>
      (Row.ticket t : Row S).Held organizationId c known' := by
  intro known₁ σ hle hσ
  rw [triple_refreshTicket]
  refine ⟨hid.mono hle, fun e known' h => ⟨h.1, hσ.mono h.1⟩, fun known' h => ⟨h.1, hσ.mono h.1⟩, ?_⟩
  intro t known' h
  exact ⟨h.1, (hσ.mono h.1).putTicket fun _ _ => ⟨h.2 _ rfl, h.2 _ rfl⟩, h.2 _ rfl⟩

theorem refreshAgentRun_stays {id : Uuid} (hid : Knows c known ⟨.agentRun, id⟩) :
    (refreshAgentRun id : M S _).Stays organizationId c known fun r known' =>
      (Row.agentRun r : Row S).Held organizationId c known' := by
  intro known₁ σ hle hσ
  rw [triple_refreshAgentRun]
  refine ⟨hid.mono hle, fun e known' h => ⟨h.1, hσ.mono h.1⟩, fun known' h => ⟨h.1, hσ.mono h.1⟩, ?_⟩
  intro r known' h
  exact ⟨h.1, (hσ.mono h.1).putAgentRun fun _ _ => ⟨h.2 _ rfl, h.2 _ rfl⟩, h.2 _ rfl⟩

theorem refreshWebhook_stays {id : Uuid} (hid : Knows c known ⟨.webhook, id⟩) :
    (refreshWebhook id : M S _).Stays organizationId c known fun v known' =>
      (Row.webhook v : Row S).Held organizationId c known' := by
  intro known₁ σ hle hσ
  rw [triple_refreshWebhook]
  refine ⟨hid.mono hle, fun e known' h => ⟨h.1, hσ.mono h.1⟩, fun known' h => ⟨h.1, hσ.mono h.1⟩, ?_⟩
  intro v known' h
  exact ⟨h.1, (hσ.mono h.1).putWebhook fun _ _ => ⟨h.2 _ rfl, h.2 _ rfl⟩, h.2 _ rfl⟩

theorem refreshDelivery_stays {id : Uuid} (hid : Knows c known ⟨.delivery, id⟩) :
    (refreshDelivery id : M S _).Stays organizationId c known fun d known' =>
      (Row.delivery d : Row S).Held organizationId c known' := by
  intro known₁ σ hle hσ
  rw [triple_refreshDelivery]
  refine ⟨hid.mono hle, fun e known' h => ⟨h.1, hσ.mono h.1⟩, fun known' h => ⟨h.1, hσ.mono h.1⟩, ?_⟩
  intro d known' h
  exact ⟨h.1, (hσ.mono h.1).putDelivery fun _ _ => ⟨h.2 _ rfl, h.2 _ rfl⟩, h.2 _ rfl⟩

theorem refreshUser_stays {id : Uuid} (hid : Knows c known ⟨.user, id⟩) :
    (refreshUser id : M S _).Stays organizationId c known fun _ _ => True := by
  unfold refreshUser
  refine (query_stays (.user id) hid).bind fun r known' _ _ => ?_
  cases r with
  | none => exact M.Stays.raise _
  | some u => exact M.Stays.pure fun _ _ => trivial

theorem refreshDocument_stays {id : Uuid} (hid : Knows c known ⟨.document, id⟩) :
    (refreshDocument id : M S _).Stays organizationId c known fun _ _ => True := by
  unfold refreshDocument
  refine (query_stays (.document id) hid).bind fun r known' _ _ => ?_
  cases r with
  | none => exact M.Stays.raise _
  | some d => exact M.Stays.pure fun _ _ => trivial

end AgentDesk

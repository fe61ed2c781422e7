import AgentDesk.Logic.Commits

namespace AgentDesk

open Framework (Table)

variable {S ρ : Type} {start : Time} {db : DB S} {w : World S}

/-- Rows, or columns of rows, that statements only ever add to: what a statement adds, and under
which key. -/
structure Growing (S ρ : Type) where
  rows : DB S → List ρ
  new : Time → Write S → Option ρ
  key : ρ → Uuid
  empty : rows .empty = []
  apply : ∀ {start : Time} {x : Write S} {db : DB S},
    (∀ row, x = .insert row → row.isPresent db = false) →
      rows (x.apply start db) = rows db ++ (new start x).toList
  keyed : ∀ {start : Time} {x : Write S} {r : ρ}, new start x = some r →
    ∃ row, x = .insert row ∧ row.id = key r

namespace Growing

variable (G : Growing S ρ)

theorem applyAll {ws : List (Write S)} (h : Absent start db ws) :
    G.rows (applyAll start db ws) = G.rows db ++ ws.filterMap (G.new start) := by
  induction ws generalizing db with
  | nil => rw [applyAll_nil, List.filterMap_nil, List.append_nil]
  | cons x ws ih =>
    rw [applyAll_cons, ih h.2, G.apply h.1, List.append_assoc, List.filterMap_cons]
    cases G.new start x <;> rfl

/-- What the commits of the history added, in order. -/
theorem rows_version (hw : w.Sane) {i : Nat} (hdb : w.versions[i]? = some db) :
    G.rows db = (w.commits.take i).flatMap fun k => k.writes.filterMap (G.new k.start) := by
  induction i generalizing db with
  | zero =>
    obtain ⟨rest, hrest⟩ := hw.first
    rw [← hrest] at hdb
    cases hdb
    exact G.empty
  | succ i ih =>
    obtain ⟨commit, before, hcommit, hbefore⟩ := hw.before hdb
    obtain ⟨rfl, habsent⟩ := hw.step i commit before db hcommit hbefore hdb
    rw [G.applyAll habsent, ih hbefore, List.take_add_one, hcommit, List.flatMap_append]
    simp

theorem rows_db (hw : w.Sane) :
    G.rows w.db = w.commits.flatMap fun k => k.writes.filterMap (G.new k.start) := by
  have hlast := G.rows_version hw World.versions_last
  rwa [hw.length, List.take_length] at hlast

/-- The rows under the keys of a session are those that its own commits added. -/
theorem rows_own (hw : w.Sane)
    (howned : ∀ k ∈ w.commits, World.ownIds k.session k.writes = true) (c : Nat) :
    (G.rows w.db).filter (fun r => (G.key r).session == c) =
      (w.commitsOf c).flatMap fun k => k.writes.filterMap (G.new k.start) := by
  have hkeys : ∀ k ∈ w.commits, ∀ r ∈ k.writes.filterMap (G.new k.start),
      (G.key r).session = k.session := by
    intro k hk r hr
    obtain ⟨x, hx, hnew⟩ := List.mem_filterMap.mp hr
    obtain ⟨row, rfl, hid⟩ := G.keyed hnew
    have hall := List.all_eq_true.mp (howned k hk) _ hx
    rw [← hid]
    exact eq_of_beq hall
  rw [G.rows_db hw, World.commitsOf]
  generalize w.commits = ks at hkeys
  induction ks with
  | nil => rfl
  | cons k ks ih =>
    have hks := ih fun k' hk' => hkeys k' (List.mem_cons_of_mem k hk')
    have hk := hkeys k List.mem_cons_self
    rw [List.flatMap_cons, List.filter_append, hks, List.filter_cons]
    by_cases hsession : k.session = c
    · have hall : (k.writes.filterMap (G.new k.start)).filter
          (fun r => (G.key r).session == c) = k.writes.filterMap (G.new k.start) :=
        List.filter_eq_self.mpr fun r hr => by rw [hk r hr, hsession, beq_self_eq_true]
      rw [hall, if_pos (by rw [hsession, beq_self_eq_true]), List.flatMap_cons]
    · have hnone : (k.writes.filterMap (G.new k.start)).filter
          (fun r => (G.key r).session == c) = [] := by
        refine List.filter_eq_nil_iff.mpr fun r hr => ?_
        rw [hk r hr]
        simpa using hsession
      rw [hnone, List.nil_append, if_neg (by simpa using hsession)]

end Growing

theorem rows_insert_of_absent {κ : Type} [Framework.Keyed ρ κ] [DecidableEq κ] {t : Table ρ}
    {r : ρ} {k : κ} (hk : Framework.Keyed.key r = k) (h : (t.find? k).isSome = false) :
    (t.insert r).rows = t.rows ++ [r] := by
  subst hk
  exact Table.rows_insert (by simpa using h)

namespace Growing

def documents : Growing S Document where
  rows db := db.documents.rows
  new start x := match x with
    | .insert (.document d) => some { d with createdAt := start }
    | _ => none
  key := Document.id
  empty := rfl
  apply {start x db} h := by
    cases x with
    | insert row =>
      cases row with
      | document d => exact rows_insert_of_absent rfl (h _ rfl)
      | _ => exact (List.append_nil _).symm
    | _ => exact (List.append_nil _).symm
  keyed {start x r} h := by
    split at h <;> cases h
    exact ⟨_, rfl, rfl⟩

def chunks : Growing S (DocumentChunk S) where
  rows db := db.documentChunks.rows
  new _ x := match x with
    | .insert (.chunk x) => some x
    | _ => none
  key := DocumentChunk.id
  empty := rfl
  apply {start x db} h := by
    cases x with
    | insert row =>
      cases row with
      | chunk x => exact rows_insert_of_absent rfl (h _ rfl)
      | _ => exact (List.append_nil _).symm
    | _ => exact (List.append_nil _).symm
  keyed {start x r} h := by
    split at h <;> cases h
    exact ⟨_, rfl, rfl⟩

def ticketEvents : Growing S TicketEvent where
  rows db := db.ticketEvents.rows
  new start x := match x with
    | .insert (.ticketEvent e) => some { e with createdAt := start }
    | _ => none
  key := TicketEvent.id
  empty := rfl
  apply {start x db} h := by
    cases x with
    | insert row =>
      cases row with
      | ticketEvent e => exact rows_insert_of_absent rfl (h _ rfl)
      | _ => exact (List.append_nil _).symm
    | _ => exact (List.append_nil _).symm
  keyed {start x r} h := by
    split at h <;> cases h
    exact ⟨_, rfl, rfl⟩

def auditLogs : Growing S AuditLog where
  rows db := db.auditLogs.rows
  new start x := match x with
    | .insert (.auditLog a) => some { a with createdAt := start }
    | _ => none
  key := AuditLog.id
  empty := rfl
  apply {start x db} h := by
    cases x with
    | insert row =>
      cases row with
      | auditLog a => exact rows_insert_of_absent rfl (h _ rfl)
      | _ => exact (List.append_nil _).symm
    | _ => exact (List.append_nil _).symm
  keyed {start x r} h := by
    split at h <;> cases h
    exact ⟨_, rfl, rfl⟩

end Growing

/-- The columns of a run that never change. -/
structure RunKey where
  id : Uuid
  ticketId : Uuid
  organizationId : Uuid

def AgentRun.toKey (r : AgentRun) : RunKey := ⟨r.id, r.ticketId, r.organizationId⟩

def Growing.runs : Growing S RunKey where
  rows db := db.agentRuns.rows.map AgentRun.toKey
  new _ x := match x with
    | .insert (.agentRun r) => some r.toKey
    | _ => none
  key := RunKey.id
  empty := rfl
  apply {start x db} h := by
    cases x with
    | insert row =>
      cases row with
      | agentRun r =>
        have hrows : (db.agentRuns.insert { r with createdAt := start }).rows = _ :=
          rows_insert_of_absent rfl (h _ rfl)
        change (db.agentRuns.insert { r with createdAt := start }).rows.map _ = _
        rw [hrows, List.map_append]
        rfl
      | _ => exact (List.append_nil _).symm
    | updateAgentRun id p =>
      refine Eq.trans ?_ (List.append_nil _).symm
      change (db.agentRuns.rows.map fun r => if r.id = id then p.apply r else r).map _ = _
      rw [List.map_map]
      refine List.map_congr_left fun r _ => ?_
      simp only [Function.comp_apply]
      split <;> rfl
    | _ => exact (List.append_nil _).symm
  keyed {start x r} h := by
    split at h <;> cases h
    exact ⟨_, rfl, rfl⟩

end AgentDesk

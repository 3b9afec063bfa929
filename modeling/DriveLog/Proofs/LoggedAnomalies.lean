import DriveLog.Proofs.DamageConfinement

/-! What the log tells of a damaged extra info page. A list that claims too much, a parameter
list that is overrun and a subpage that runs off the list are each warned of once, in page
order. The other subpages keep their faults to themselves: the report shows them, the log
does not. -/

namespace DriveLog

def Message.isWarning (m : Message) : Bool := m.level = .warn

namespace Hgst

open Text

/-! ## Faults -/

namespace Subpage

/-- What is wrong inside the subpage. -/
def fault : Subpage → Option Anomaly
  | errorCounters _ list => list.fault.map Anomaly.truncated
  | selfTest log => log.fault
  | mediaScan scan => scan.fault
  | eraseCounts _ => none
  | temperatureHistory history => ofRead history
  | performance _ counters => ofRead counters
  | firmwareLoad load => ofRead load
  | unhandled _ => none
where
  ofRead {α : Type} : Except Anomaly α → Option Anomaly
    | .ok _ => none
    | .error anomaly => some anomaly

/-- Parameter lists alone warn of their faults. -/
def warnsOfFault : Subpage → Bool
  | errorCounters _ _ => true
  | _ => false

variable {body : Subpage}

/-- A fault is warned of once or not at all. -/
theorem countP_messages (body : Subpage) :
    body.messages.countP Message.isWarning =
      if body.fault.isSome && body.warnsOfFault then 1 else 0 := by
  cases body with
  | errorCounters operation list =>
    cases hfault : list.fault with
    | none => simp [messages, ParameterList.messages, fault, hfault]
    | some shortfall =>
      simp [messages, ParameterList.messages, fault, hfault, warnsOfFault, Message.isWarning]
  | mediaScan scan =>
    simp only [messages, MediaScan.messages, warnsOfFault]
    split <;> simp [Message.isWarning]
  | _ => simp [messages, warnsOfFault]

end Subpage

/-! ## Warnings -/

def ParameterList.faultWarning (list : ParameterList) (shortfall : Shortfall) : Message :=
  ⟨.warn, .parameterList, "parameter at offset " ++ decimal list.consumed ++
    " overruns its list: " ++ shortfall.message⟩

theorem ParameterList.messages_eq (list : ParameterList) :
    list.messages = (list.fault.map list.faultWarning).toList := by
  unfold messages
  cases list.fault with
  | none => rfl
  | some shortfall => rfl

/-- A warning out of a subpage is that of its parameter list. -/
theorem Subpage.of_mem_warnings {body : Subpage} {m : Message}
    (h : m ∈ body.messages.filter Message.isWarning) :
    ∃ operation list shortfall, body = .errorCounters operation list ∧
      list.fault = some shortfall ∧ m = list.faultWarning shortfall := by
  obtain ⟨hmem, hwarning⟩ := List.mem_filter.mp h
  cases body with
  | errorCounters operation list =>
    have hlist : m ∈ list.messages := hmem
    rw [ParameterList.messages_eq, Option.mem_toList] at hlist
    obtain ⟨shortfall, hfault, rfl⟩ := Option.map_eq_some_iff.mp hlist
    exact ⟨operation, list, shortfall, rfl, hfault, rfl⟩
  | mediaScan scan =>
    simp only [messages, MediaScan.messages] at hmem
    split at hmem
    · rw [List.mem_singleton.mp hmem] at hwarning
      cases hwarning
    · cases hmem
  | _ => cases hmem

def Overrun.warning (overrun : Overrun) : Message :=
  ⟨.warn, .infoPage, "subpage at offset " ++ decimal overrun.offset ++
    " runs off the list: " ++ overrun.cause.message⟩

namespace InfoPage

variable {bs : Bytes} {page : InfoPage} {past : Nat}

theorem overrunMessages_eq (page : InfoPage) :
    page.overrunMessages = (page.overrun.map Overrun.warning).toList := by
  unfold overrunMessages
  cases page.overrun with
  | none => rfl
  | some overrun => rfl

/-- The list claims more bytes than there are behind the header. -/
def ClaimsTooMuch (bs : Bytes) : Prop := bs.length - 4 < bs.numberAt 2 2

instance : Decidable (ClaimsTooMuch bs) := inferInstanceAs (Decidable (_ < _))

def claimWarning (bs : Bytes) : Message :=
  ⟨.warn, .infoPage, "subpage list claims " ++ decimal (bs.numberAt 2 2) ++ " bytes, only " ++
    decimal (bs.length - 4) ++ " in the buffer"⟩

theorem claimMessages_eq (h : ofBytes? bs = .ok page) :
    page.claimMessages = if ClaimsTooMuch bs then [claimWarning bs] else [] := by
  have hle := le_length_of_ofBytes? h
  obtain rfl : _ = page := Except.ok.inj ((ofBytes?_of_le hle).symm.trans h)
  unfold claimMessages ClaimsTooMuch claimWarning
  by_cases hclaim : bs.length - 4 < bs.numberAt 2 2
  · simp [hclaim, Nat.min_eq_right (Nat.le_of_lt hclaim)]
  · simp [hclaim, Nat.min_eq_left (Nat.not_lt.mp hclaim)]

/-! ## Pages -/

theorem describes_of_ofBytes? (h : ofBytes? bs = .ok page) : ∃ past, page.Describes bs past := by
  obtain ⟨page', past, hpage, hdescribes⟩ := exists_describes (le_length_of_ofBytes? h)
  obtain rfl : page' = page := Except.ok.inj (hpage.symm.trans h)
  exact ⟨past, hdescribes⟩

def warnings (page : InfoPage) : List Message := page.messages.filter Message.isWarning

/-- How often reading a page meets something wrong: a list that claims too much, a fault
inside a subpage, or a subpage that runs off the list. -/
def anomalies (bs : Bytes) (page : InfoPage) : Nat :=
  (if ClaimsTooMuch bs then 1 else 0) +
    page.subpages.countP (fun entry => entry.body.fault.isSome) +
    (if page.overrun.isSome then 1 else 0)

/-- How many subpages have a fault that the log passes over. -/
def unwarned (page : InfoPage) : Nat :=
  page.subpages.countP fun entry => entry.body.fault.isSome && !entry.body.warnsOfFault

/-- The message warns of what is wrong at this offset of the page. -/
inductive WarnsAt (bs : Bytes) (page : InfoPage) : Nat → Message → Prop
  | claim (h : ClaimsTooMuch bs) : WarnsAt bs page 2 (claimWarning bs)
  | parameter {entry : SubpageEntry} {operation : MediaOperation} {list : ParameterList}
      {shortfall : Shortfall} (hentry : entry ∈ page.subpages)
      (hbody : entry.body = .errorCounters operation list)
      (hfault : list.fault = some shortfall) :
    WarnsAt bs page entry.offset (list.faultWarning shortfall)
  | overrun {overrun : Overrun} (h : page.overrun = some overrun) :
    WarnsAt bs page overrun.offset overrun.warning

/-- What the log of a page tells of its anomalies. -/
structure WarnsOf (bs : Bytes) (page : InfoPage) : Prop where
  /-- The warnings come in page order, and no two of them are about the same place. -/
  inOrder : ∃ placed : List (Nat × Message), placed.map Prod.snd = page.warnings ∧
    placed.Pairwise (fun a b => a.1 < b.1) ∧ ∀ p ∈ placed, WarnsAt bs page p.1 p.2
  count : page.warnings.length + page.unwarned = anomalies bs page
  complete_iff : page.warnings.length = anomalies bs page ↔
    ∀ entry ∈ page.subpages, entry.body.fault.isSome → entry.body.warnsOfFault

/-! Each warning with the offset of what it is about. -/

def placedClaim (bs : Bytes) : List (Nat × Message) :=
  if ClaimsTooMuch bs then [(2, claimWarning bs)] else []

def placedFaults (page : InfoPage) : List (Nat × Message) :=
  page.subpages.flatMap fun entry =>
    (entry.body.messages.filter Message.isWarning).map fun m => (entry.offset, m)

def placedOverrun (page : InfoPage) : List (Nat × Message) :=
  (page.overrun.map fun overrun => (overrun.offset, overrun.warning)).toList

def placedWarnings (bs : Bytes) (page : InfoPage) : List (Nat × Message) :=
  placedClaim bs ++ page.placedFaults ++ page.placedOverrun

section

variable {p : Nat × Message}

theorem mem_placedClaim : p ∈ placedClaim bs ↔ ClaimsTooMuch bs ∧ p = (2, claimWarning bs) := by
  unfold placedClaim
  by_cases hclaim : ClaimsTooMuch bs
  · simp [hclaim]
  · simp [hclaim]

theorem mem_placedFaults :
    p ∈ page.placedFaults ↔ ∃ entry ∈ page.subpages,
      ∃ m ∈ entry.body.messages.filter Message.isWarning, (entry.offset, m) = p := by
  simp only [placedFaults, List.mem_flatMap, List.mem_map]

theorem mem_placedOverrun :
    p ∈ page.placedOverrun ↔
      ∃ overrun, page.overrun = some overrun ∧ (overrun.offset, overrun.warning) = p := by
  simp only [placedOverrun, Option.mem_toList, Option.map_eq_some_iff]

theorem warnsAt_of_mem_placedWarnings (hp : p ∈ placedWarnings bs page) :
    WarnsAt bs page p.1 p.2 := by
  unfold placedWarnings at hp
  rw [List.mem_append, List.mem_append, mem_placedClaim, mem_placedFaults, mem_placedOverrun] at hp
  rcases hp with (⟨hclaim, rfl⟩ | ⟨entry, hentry, m, hm, rfl⟩) | ⟨overrun, hoverrun, rfl⟩
  · exact .claim hclaim
  · obtain ⟨operation, list, shortfall, hbody, hfault, rfl⟩ := Subpage.of_mem_warnings hm
    exact .parameter hentry hbody hfault
  · exact .overrun hoverrun

end

theorem map_snd_placedWarnings (h : ofBytes? bs = .ok page) :
    (placedWarnings bs page).map Prod.snd = page.warnings := by
  have hclaim : (placedClaim bs).map Prod.snd = page.claimMessages.filter Message.isWarning := by
    rw [claimMessages_eq h, placedClaim]
    split <;> rfl
  have hfaults : page.placedFaults.map Prod.snd =
      (page.subpages.flatMap SubpageEntry.messages).filter Message.isWarning := by
    have hentry : ∀ entry : SubpageEntry, entry.messages.filter Message.isWarning =
        entry.body.messages.filter Message.isWarning := fun _ => rfl
    simp only [placedFaults, List.map_flatMap, List.filter_flatMap, List.map_map,
      Function.comp_def, List.map_id', hentry]
  have hoverrun : page.placedOverrun.map Prod.snd =
      page.overrunMessages.filter Message.isWarning := by
    rw [overrunMessages_eq, placedOverrun]
    cases page.overrun <;> rfl
  rw [placedWarnings, warnings, messages, List.map_append, List.map_append, List.filter_append,
    List.filter_append, hclaim, hfaults, hoverrun]

/-- Two messages of one place are no two warnings. -/
theorem pairwise_filter_messages (body : Subpage) (offset : Nat) :
    ((body.messages.filter Message.isWarning).map fun m => (offset, m)).Pairwise
      fun a b => a.1 < b.1 := by
  have hcount := body.countP_messages
  rw [List.countP_eq_length_filter] at hcount
  generalize body.messages.filter Message.isWarning = warnings at hcount ⊢
  match warnings, hcount with
  | [], _ => exact .nil
  | [m], _ => exact List.pairwise_singleton _ _
  | _ :: _ :: _, hcount =>
    simp only [List.length_cons] at hcount
    split at hcount <;> omega

/-- The header stands before all subpages, and an overrun behind them. -/
theorem pairwise_placedWarnings (h : page.Describes bs past) :
    (placedWarnings bs page).Pairwise fun a b => a.1 < b.1 := by
  have hpast := h.tile.start_le_past
  have hclaim : ∀ a ∈ placedClaim bs, a.1 = 2 := by
    intro a ha
    rw [(mem_placedClaim.mp ha).2]
  have hfaults : ∀ a ∈ page.placedFaults, 4 ≤ a.1 ∧ a.1 < past := by
    intro a ha
    obtain ⟨entry, hentry, m, _, rfl⟩ := mem_placedFaults.mp ha
    obtain ⟨_, hstart, hend, _⟩ := h.tile.of_mem hentry
    exact ⟨hstart, Nat.lt_of_lt_of_le (Nat.lt_of_lt_of_le (Nat.lt_add_of_pos_right (by decide))
      entry.header_le_past) hend⟩
  have hoverrun : ∀ a ∈ page.placedOverrun, a.1 = past := by
    intro a ha
    obtain ⟨overrun, hsome, rfl⟩ := mem_placedOverrun.mp ha
    have heq := h.overrun_eq
    rw [hsome, Option.map_some] at heq
    split at heq
    · cases heq
    · exact Anomaly.subpageOverrun.inj (Option.some.inj heq)
  refine List.pairwise_append.mpr ⟨List.pairwise_append.mpr ⟨?claim, ?faults, ?behindClaim⟩,
    ?overrun, ?behindFaults⟩
  case claim =>
    unfold placedClaim
    split
    · exact List.pairwise_singleton _ _
    · exact .nil
  case faults =>
    refine List.pairwise_flatMap.mpr
      ⟨fun entry _ => pairwise_filter_messages entry.body entry.offset, ?_⟩
    refine h.tile.pairwise.imp ?_
    intro entry entry' hapart
    have hle := entry.header_le_past
    simp only [List.forall_mem_map]
    intro _ _ _ _
    omega
  case behindClaim =>
    intro a ha b hb
    have hbehind := (hfaults b hb).1
    rw [hclaim a ha]
    omega
  case overrun =>
    unfold placedOverrun
    cases page.overrun with
    | none => exact .nil
    | some overrun => exact List.pairwise_singleton _ _
  case behindFaults =>
    intro a ha b hb
    rw [hoverrun b hb]
    rcases List.mem_append.mp ha with ha | ha
    · rw [hclaim a ha]
      omega
    · exact (hfaults a ha).2

theorem countP_entries (entries : List SubpageEntry) :
    (entries.flatMap SubpageEntry.messages).countP Message.isWarning +
        entries.countP (fun entry => entry.body.fault.isSome && !entry.body.warnsOfFault) =
      entries.countP fun entry => entry.body.fault.isSome := by
  induction entries with
  | nil => rfl
  | cons entry entries ih =>
    have hentry : entry.messages.countP Message.isWarning =
        if entry.body.fault.isSome && entry.body.warnsOfFault then 1 else 0 :=
      entry.body.countP_messages
    rw [List.flatMap_cons, List.countP_append, List.countP_cons, List.countP_cons, hentry, ← ih]
    cases entry.body.fault.isSome <;> cases entry.body.warnsOfFault <;> simp <;> omega

theorem length_warnings (h : ofBytes? bs = .ok page) :
    page.warnings.length + page.unwarned = anomalies bs page := by
  have hclaim : page.claimMessages.countP Message.isWarning =
      if ClaimsTooMuch bs then 1 else 0 := by
    rw [claimMessages_eq h]
    split <;> rfl
  have hoverrun : page.overrunMessages.countP Message.isWarning =
      if page.overrun.isSome then 1 else 0 := by
    rw [overrunMessages_eq]
    cases page.overrun <;> rfl
  have hentries := countP_entries page.subpages
  rw [warnings, ← List.countP_eq_length_filter, messages, List.countP_append, List.countP_append,
    hclaim, hoverrun, unwarned, anomalies]
  omega

/-- Nothing is warned of that is not wrong, and nothing twice; but the faults of a subpage
are warned of only if it is a parameter list. -/
theorem warnsOf_of_ofBytes? (h : ofBytes? bs = .ok page) : WarnsOf bs page := by
  have hlength := length_warnings h
  refine ⟨⟨placedWarnings bs page, map_snd_placedWarnings h, ?_,
    fun p => warnsAt_of_mem_placedWarnings⟩, hlength, ?_⟩
  · obtain ⟨past, hdescribes⟩ := describes_of_ofBytes? h
    exact pairwise_placedWarnings hdescribes
  · have hzero : page.unwarned = 0 ↔
        ∀ entry ∈ page.subpages, entry.body.fault.isSome → entry.body.warnsOfFault := by
      rw [unwarned, List.countP_eq_zero]
      simp
    rw [← hzero]
    omega

/-- The claim of this list is warned of, the firmware load that has no byte is not. -/
theorem warnsOf_of_ofBytes?_claim :
    let bs : Bytes := [1, 0, 0xff, 0xff, 0x38, 0, 0, 0]
    ∃ page, ofBytes? bs = .ok page ∧ WarnsOf bs page ∧ page.warnings.length = 1 ∧
      anomalies bs page = 2 := by
  intro bs
  have hpage := @ofBytes?_bytes 1 0 0xffff [⟨0x38, 0, [], by decide⟩] [] (by decide) (by decide)
  exact ⟨_, hpage, warnsOf_of_ofBytes? hpage, rfl, rfl⟩

/-- A firmware load without a byte is an anomaly of the page, and the log is silent. -/
theorem warnings_length_ne_anomalies :
    let bs : Bytes := [1, 0, 4, 0, 0x38, 0, 0, 0]
    ∃ page, ofBytes? bs = .ok page ∧ page.warnings.length ≠ anomalies bs page := by
  intro bs
  have hpage := @ofBytes?_bytes 1 0 4 [⟨0x38, 0, [], by decide⟩] [] (by decide) (by decide)
  exact ⟨_, hpage, by decide⟩

end InfoPage

end Hgst

end DriveLog

import WebAudit.Journal.Entry
import WebAudit.Journal.Summary
import WebAudit.Proofs.Json.RoundTrip

/-!
# Statistics of logs

Every entry is one line of the log, whatever its strings hold, and the line is read as an object with the same
event, reason and rule. So the statistics of a log that was written count its entries. In a log of any lines each
line adds to the figures what it is worth by itself, or is faulty and stops the count.
-/

namespace WebAudit.Journal

open Json

/-! ## Counts -/

/-- The keys in the order in which they come first, each with how often it comes. -/
def tabulate (keys : List String) : List (String × Nat) :=
  keys.eraseDups.map fun key => (key, keys.count key)

theorem eraseDups_concat (keys : List String) (key : String) :
    (keys ++ [key]).eraseDups = if key ∈ keys then keys.eraseDups else keys.eraseDups ++ [key] := by
  rw [List.eraseDups_append]
  split
  · rename_i hOld
    simp [List.removeAll, hOld]
  · rename_i hNew
    simp [List.removeAll, hNew, List.eraseDups_cons]

theorem nodup_eraseDups (keys : List String) : keys.eraseDups.Nodup := by
  induction keys using List.reverseRecOn with
  | nil => simp
  | append_singleton keys key ih =>
    rw [eraseDups_concat]
    split
    · exact ih
    · rename_i hNew
      refine List.nodup_append.mpr ⟨ih, List.nodup_singleton key, ?_⟩
      rintro x hx y hy rfl
      exact hNew (List.mem_eraseDups.mp (List.mem_singleton.mp hy ▸ hx))

theorem put_map {keys : List String} (h : keys.Nodup) {key : String} (hKey : key ∈ keys) (f : String → Nat) (n : Nat) :
    Table.put key n (keys.map fun x => (x, f x)) = keys.map fun x => (x, if x = key then n else f x) := by
  induction keys with
  | nil => cases hKey
  | cons x keys ih =>
    obtain ⟨hx, hRest⟩ := List.nodup_cons.mp h
    rw [List.map_cons, List.map_cons, Table.put]
    split
    · rename_i hSame
      have hOthers : ∀ y ∈ keys, y ≠ key := fun y hy hEq => hx (hSame ▸ hEq ▸ hy)
      exact congrArg _ (List.map_congr_left fun y hy => by rw [if_neg (hOthers y hy)])
    · rename_i hOther
      rw [ih hRest ((List.mem_cons.mp hKey).resolve_left (Ne.symm hOther))]

def tallyText (key : String) (counts : List (String × Nat)) : List (String × Nat) :=
  Table.put key ((counts.lookup key).getD 0 + 1) counts

theorem tallyText_of_notMem {key : String} {counts : List (String × Nat)} (h : key ∉ Table.keys counts) :
    tallyText key counts = counts ++ [(key, 1)] := by
  have hLookup : counts.lookup key = none := by
    rw [List.lookup_eq_none_iff]
    intro entry hEntry
    rw [bne_iff_ne]
    rintro rfl
    exact h (List.mem_map_of_mem hEntry)
  rw [tallyText, Table.put_of_notMem h, hLookup]
  rfl

theorem keys_tabulate (keys : List String) : Table.keys (tabulate keys) = keys.eraseDups := by
  rw [Table.keys, tabulate, List.map_map]
  exact List.map_id _

/-- A key more is counted in its place. -/
theorem tallyText_tabulate (keys : List String) (key : String) :
    tallyText key (tabulate keys) = tabulate (keys ++ [key]) := by
  have hCount (x : String) : (keys ++ [key]).count x = if x = key then keys.count key + 1 else keys.count x := by
    by_cases hSame : x = key
    · rw [if_pos hSame, hSame, List.count_append, List.count_singleton_self]
    · rw [if_neg hSame, List.count_append, List.count_singleton, if_neg (by simpa using Ne.symm hSame), Nat.add_zero]
  by_cases hKey : key ∈ keys.eraseDups
  · unfold tallyText tabulate
    rw [List.lookup_graph (fun x => keys.count x) hKey, put_map (nodup_eraseDups keys) hKey, eraseDups_concat,
      if_pos (List.mem_eraseDups.mp hKey)]
    simp only [hCount]
    rfl
  · have hNew : key ∉ keys := fun hOld => hKey (List.mem_eraseDups.mpr hOld)
    have hOthers : ∀ x ∈ keys.eraseDups, (x, (keys ++ [key]).count x) = (x, keys.count x) := by
      intro x hx
      rw [hCount, if_neg (ne_of_mem_of_not_mem hx hKey)]
    rw [tallyText_of_notMem (by rwa [keys_tabulate]), tabulate, tabulate, eraseDups_concat, if_neg hNew,
      List.map_append, List.map_congr_left hOthers, List.map_singleton, hCount, if_pos rfl,
      List.count_eq_zero_of_not_mem hNew]

theorem sum_tallyText (key : String) (counts : List (String × Nat)) :
    ((tallyText key counts).map (·.2)).sum = (counts.map (·.2)).sum + 1 := by
  unfold tallyText
  induction counts with
  | nil => rfl
  | cons entry counts ih =>
    obtain ⟨k, n⟩ := entry
    rw [List.lookup_cons, Table.put]
    by_cases hKey : k = key
    · rw [if_pos hKey, hKey, beq_self_eq_true, List.map_cons, List.sum_cons, List.map_cons, List.sum_cons]
      exact Nat.add_right_comm n 1 _
    · rw [if_neg hKey, beq_eq_false_iff_ne.mpr (Ne.symm hKey)]
      rw [List.map_cons, List.sum_cons, ih, List.map_cons, List.sum_cons, Nat.add_assoc]

theorem sum_tabulate (keys : List String) : ((tabulate keys).map (·.2)).sum = keys.length := by
  induction keys using List.reverseRecOn with
  | nil => rfl
  | append_singleton keys key ih =>
    rw [← tallyText_tabulate, sum_tallyText, ih, List.length_append, List.length_singleton]

def keyed (counts : List (String × Nat)) : List (Key × Nat) :=
  counts.map fun c => (.str c.1, c.2)

theorem tally_keyed (key : String) (counts : List (String × Nat)) :
    tally (.str key) (keyed counts) = keyed (tallyText key counts) := by
  unfold tallyText keyed
  induction counts with
  | nil => rfl
  | cons entry counts ih =>
    obtain ⟨k, n⟩ := entry
    have hIdentity : (Key.str k).identity = (Key.str key).identity ↔ k = key := by simp [Key.identity, Key.amount?]
    rw [List.map_cons, tally, List.lookup_cons, Table.put]
    by_cases hKey : k = key
    · rw [if_pos (hIdentity.mpr hKey), if_pos hKey, hKey, beq_self_eq_true]
      rfl
    · rw [if_neg (mt hIdentity.mp hKey), if_neg hKey, beq_eq_false_iff_ne.mpr (Ne.symm hKey), ih]
      rfl

/-! ## Lines -/

theorem logLinesFrom_line {cs : List Char} (h : ∀ c ∈ cs, Plain c) (taken rest : List Char) :
    logLinesFrom taken (cs ++ '\n' :: rest) = (taken.reverse ++ cs) :: logLinesFrom [] rest := by
  induction cs generalizing taken with
  | nil =>
    rw [List.nil_append, List.append_nil, logLinesFrom, if_pos (by decide)]
    simp
  | cons c cs ih =>
    obtain ⟨hFirst, hOthers⟩ := List.forall_mem_cons.mp h
    have hNewline : c ≠ '\n' := by
      rintro rfl
      exact absurd hFirst (by decide)
    have hReturn : c ≠ '\r' := by
      rintro rfl
      exact absurd hFirst (by decide)
    rw [List.cons_append, logLinesFrom, if_neg (by simp [hNewline, hReturn]), ih hOthers, List.reverse_cons,
      List.append_assoc, List.singleton_append]
    exact fun _ hEq _ => hReturn hEq

/-- Each entry with a newline after it is one line. -/
theorem logLines_log {lines : List String} (h : ∀ line ∈ lines, ∀ c ∈ line.toList, Plain c) :
    logLinesFrom [] (String.join (lines.map (· ++ "\n"))).toList = lines.map String.toList := by
  rw [String.toList_join]
  induction lines with
  | nil => rfl
  | cons line lines ih =>
    obtain ⟨hFirst, hOthers⟩ := List.forall_mem_cons.mp h
    rw [List.map_cons, List.flatMap_cons, String.toList_append, List.append_assoc]
    exact (logLinesFrom_line hFirst [] _).trans (congrArg _ (ih hOthers))

/-! ## Entries -/

namespace Entry

/-- The entry can be written to a log and read again: its members are not too large and not nested too deep for
that, and its reason and its rule are strings, if it has them. -/
structure Loggable (depth : Nat) (e : Entry) : Prop where
  level : e.level.Readable depth
  logger : e.logger.Readable depth
  details : ∀ name ∈ loggedFields, ∀ v, e.fields.lookup name = some v → v.Readable depth
  reason : ∀ v, e.fields.lookup "reason" = some v → ∃ s, v = .str s
  rule : ∀ v, e.fields.lookup "rule_id" = some v → ∃ s, v = .str s

def isEvent (event : String) (e : Entry) : Bool :=
  (e.fields.lookup "event").bind Value.str? == some event

/-- The text of a field; a field that is not there is unknown. -/
def fieldText (name : String) (e : Entry) : String :=
  ((e.fields.lookup name).bind Value.str?).getD "unknown"

variable {depth : Nat} {e : Entry}

theorem Loggable.of_fields (hLevel : e.level.Readable depth) (hLogger : e.logger.Readable depth)
    (hFields : ∀ f ∈ e.fields,
      f.2.Readable depth ∧ (f.1 = "reason" ∨ f.1 = "rule_id" → ∃ s, f.2 = .str s)) : e.Loggable depth := by
  have hMem {name : String} {v : Value} (h : e.fields.lookup name = some v) : (name, v) ∈ e.fields := by
    obtain ⟨front, back, hSplit, -⟩ := List.lookup_eq_some_iff.mp h
    rw [hSplit]
    exact List.mem_append_right front List.mem_cons_self
  refine ⟨hLevel, hLogger, ?_, ?_, ?_⟩
  · exact fun name _ v h => (hFields _ (hMem h)).1
  · exact fun v h => (hFields _ (hMem h)).2 (.inl rfl)
  · exact fun v h => (hFields _ (hMem h)).2 (.inr rfl)

theorem isEvent_iff {event : String} : e.isEvent event = true ↔ e.fields.lookup "event" = some (.str event) := by
  unfold isEvent
  rw [beq_iff_eq, Option.bind_eq_some_iff]
  constructor
  · rintro ⟨v, hField, hString⟩
    cases v with
    | str s => rw [hField, Option.some.inj hString]
    | _ => cases hString
  · intro hField
    exact ⟨_, hField, rfl⟩

def lineMembers (e : Entry) : List (String × Value) :=
  ("timestamp", .str e.time.text) :: e.members

/-- The members that are no details have other names, and their values are the level, the logger or a string. -/
theorem mem_lineMembers {f : String × Value} (h : f ∈ e.lineMembers) :
    f ∈ e.details ∨ f.1 ∉ loggedFields ∧ (f.2 = e.level ∨ f.2 = e.logger ∨ ∃ s, f.2 = .str s) := by
  unfold lineMembers members at h
  simp only [List.cons_append, List.nil_append, List.mem_cons, List.mem_append, Option.mem_toList,
    Option.map_eq_some_iff] at h
  rcases h with rfl | rfl | rfl | rfl | h | ⟨failure, -, rfl⟩
  · exact .inr ⟨by simp [loggedFields], .inr (.inr ⟨_, rfl⟩)⟩
  · exact .inr ⟨by simp [loggedFields], .inl rfl⟩
  · exact .inr ⟨by simp [loggedFields], .inr (.inl rfl)⟩
  · exact .inr ⟨by simp [loggedFields], .inr (.inr ⟨_, rfl⟩)⟩
  · exact .inl h
  · exact .inr ⟨by simp [loggedFields], .inr (.inr ⟨_, rfl⟩)⟩

theorem mem_details {f : String × Value} : f ∈ e.details ↔ f.1 ∈ loggedFields ∧ e.fields.lookup f.1 = some f.2 := by
  unfold details
  rw [List.mem_filterMap]
  constructor
  · rintro ⟨name, hName, hField⟩
    obtain ⟨v, hv, rfl⟩ := Option.map_eq_some_iff.mp hField
    exact ⟨hName, hv⟩
  · rintro ⟨hName, hField⟩
    exact ⟨f.1, hName, Option.map_eq_some_iff.mpr ⟨f.2, hField, rfl⟩⟩

theorem nodup_lineMembers (e : Entry) : (Table.keys e.lineMembers).Nodup := by
  have hDetails : (Table.keys e.details).Sublist loggedFields := by
    unfold Table.keys details
    rw [List.map_filterMap]
    have hKeys : ∀ names : List String, (names.filterMap fun name =>
        ((e.fields.lookup name).map (name, ·)).map Prod.fst).Sublist names := by
      intro names
      induction names with
      | nil => exact .slnil
      | cons name names ih =>
        rw [List.filterMap_cons]
        cases e.fields.lookup name with
        | none => exact ih.cons name
        | some v => exact ih.cons_cons name
    exact hKeys loggedFields
  have hFailure : (Table.keys (e.failure.map fun failure =>
      ("exception", Value.str (failureText failure.1 failure.2))).toList).Sublist ["exception"] := by
    cases e.failure <;> simp [Table.keys]
  have hAll : (Table.keys e.lineMembers).Sublist
      (["timestamp", "level", "logger", "message"] ++ (loggedFields ++ ["exception"])) := by
    unfold lineMembers members Table.keys
    rw [List.append_assoc, List.map_cons, List.map_append, List.map_append]
    exact (List.Sublist.refl ["timestamp", "level", "logger", "message"]).append (hDetails.append hFailure)
  exact hAll.nodup (by decide)

theorem lookup_lineMembers {name : String} (h : name ∈ loggedFields) :
    e.lineMembers.lookup name = e.fields.lookup name := by
  refine Option.ext fun v => ?_
  rw [Table.lookup_eq_some_iff e.nodup_lineMembers]
  constructor
  · intro hMember
    rcases mem_lineMembers hMember with hDetail | ⟨hOther, -⟩
    · exact (mem_details.mp hDetail).2
    · exact absurd h hOther
  · intro hField
    have hDetail : (name, v) ∈ e.details := mem_details.mpr ⟨h, hField⟩
    simp [lineMembers, members, hDetail]

theorem Loggable.readable (h : e.Loggable depth) : ∀ f ∈ e.lineMembers, f.2.Readable depth := by
  intro f hf
  rcases mem_lineMembers hf with hDetail | ⟨-, hLevel | hLogger | ⟨s, hString⟩⟩
  · obtain ⟨hName, hField⟩ := mem_details.mp hDetail
    exact h.details f.1 hName f.2 hField
  · exact hLevel ▸ h.level
  · exact hLogger ▸ h.logger
  · exact hString ▸ .str s

theorem Loggable.plain_line (h : e.Loggable depth) : ∀ c ∈ e.line.toList, Plain c := by
  unfold line Value.encode
  rw [String.toList_ofList]
  exact (Reads.obj fun f hf => (h.readable f hf).reads).plain

end Entry

/-! ## Taking in a line -/

namespace Statistics

theorem stripChars_line (e : Entry) : Text.stripChars e.line.toList = e.line.toList := by
  unfold Entry.line Value.encode
  rw [String.toList_ofList, encodeChars_obj]
  unfold Text.stripChars Text.stripLeft Text.stripRight
  rw [List.cons_append, List.dropWhile_cons_of_neg (by decide), ← List.cons_append, List.reverse_append,
    List.reverse_singleton, List.singleton_append, List.dropWhile_cons_of_neg (by decide), List.reverse_cons,
    List.reverse_reverse]

/-- What has no event is passed over. -/
theorem add_of_no_event {s : Statistics} {fields : List (String × Value)}
    (h : ∀ event, fields.lookup "event" ≠ some (.str event)) : s.add fields = .ok s := by
  unfold add
  split
  case h_6 => rfl
  all_goals
    rename_i hEvent
    exact absurd hEvent (h _)

/-- Only the event, the reason and the rule count. -/
theorem add_congr {s : Statistics} {fields fields' : List (String × Value)}
    (hEvent : ∀ event, fields'.lookup "event" = some (.str event) ↔ fields.lookup "event" = some (.str event))
    (hReason : fields'.lookup "reason" = fields.lookup "reason")
    (hRule : fields'.lookup "rule_id" = fields.lookup "rule_id") : s.add fields' = s.add fields := by
  by_cases hSome : ∃ event, fields.lookup "event" = some (.str event)
  · obtain ⟨event, hSome⟩ := hSome
    unfold add fieldKey
    rw [hSome, (hEvent event).mpr hSome, hReason, hRule]
  · have hNone : ∀ event, fields.lookup "event" ≠ some (.str event) := not_exists.mp hSome
    rw [add_of_no_event hNone, add_of_no_event fun event h => hNone event ((hEvent event).mp h)]

/-- The line of an entry is taken in as its fields are. -/
theorem addLine_line {depth : Nat} {e : Entry} (h : e.Loggable depth) (s : Statistics) :
    s.addLine (depth + 1) e.line.toList = s.add e.fields := by
  obtain ⟨fields', hDecode, hEchoes⟩ := decode_encode_obj h.readable e.nodup_lineMembers
  have hString (name : String) (hName : name ∈ loggedFields)
      (hKind : ∀ v, e.fields.lookup name = some v → ∃ s, v = .str s) :
      fields'.lookup name = e.fields.lookup name := by
    obtain ⟨hSame, hNone⟩ := lookup_echoes hEchoes name
    rw [Entry.lookup_lineMembers hName] at hSame hNone
    cases hField : e.fields.lookup name with
    | none => exact hNone.mpr hField
    | some v =>
      obtain ⟨s, rfl⟩ := hKind v hField
      exact (hSame s).mpr hField
  have hEvent (event : String) :
      fields'.lookup "event" = some (.str event) ↔ e.fields.lookup "event" = some (.str event) := by
    rw [(lookup_echoes hEchoes "event").1, Entry.lookup_lineMembers (by decide)]
  have hLine : lineValue (depth + 1) e.line.toList = .ok (.obj fields') := by
    rw [lineValue, stripChars_line, String.ofList_toList]
    exact hDecode
  rw [addLine, hLine]
  exact add_congr hEvent (hString "reason" (by decide) h.reason) (hString "rule_id" (by decide) h.rule)

/-! ## All lines -/

/-- How often an event comes, and which reasons and rules its entries have. -/
def ofEntries (entries : List Entry) : Statistics where
  runs := entries.countP (·.isEvent "run_completed")
  recordsAnalyzed := entries.countP (·.isEvent "record_analyzed")
  recordsSkipped := entries.countP (·.isEvent "record_skipped")
  detectorFailures := entries.countP (·.isEvent "detector_failed")
  parseFailures := entries.countP (·.isEvent "parse_failed")
  skipReasons := keyed (tabulate ((entries.filter (·.isEvent "record_skipped")).map (·.fieldText "reason")))
  failingRules := keyed (tabulate ((entries.filter (·.isEvent "detector_failed")).map (·.fieldText "rule_id")))

theorem fieldKey_fields {e : Entry} {name : String} (h : ∀ v, e.fields.lookup name = some v → ∃ s, v = .str s) :
    fieldKey e.fields name = .ok (.str (e.fieldText name)) := by
  unfold fieldKey Entry.fieldText
  cases hField : e.fields.lookup name with
  | none => rfl
  | some v =>
    obtain ⟨s, rfl⟩ := h v hField
    rfl

/-- One entry more is counted by its event. -/
theorem add_ofEntries {depth : Nat} {e : Entry} (h : e.Loggable depth) (entries : List Entry) :
    (ofEntries entries).add e.fields = .ok (ofEntries (entries ++ [e])) := by
  have hReason := fieldKey_fields h.reason
  have hRule := fieldKey_fields h.rule
  have hIs {event : String} (hEvent : e.fields.lookup "event" = some (.str event)) (other : String) :
      e.isEvent other = (event == other) := by
    simp [Entry.isEvent, hEvent, Value.str?]
  have hNot {event : String} (hOther : e.fields.lookup "event" = some (.str event) → False) :
      e.isEvent event = false :=
    Bool.eq_false_iff.mpr fun hEvent => hOther (Entry.isEvent_iff.mp hEvent)
  unfold add
  split
  case h_1 hEvent => simp [ofEntries, hIs hEvent]
  case h_2 hEvent => simp [ofEntries, hIs hEvent]
  case h_3 hEvent =>
    rw [hReason]
    simp [ofEntries, hIs hEvent, ← tallyText_tabulate, ← tally_keyed]
  case h_4 hEvent =>
    rw [hRule]
    simp [ofEntries, hIs hEvent, ← tallyText_tabulate, ← tally_keyed]
  case h_5 hEvent => simp [ofEntries, hIs hEvent]
  case h_6 hRun hAnalyzed hSkipped hFailed hParse =>
    simp [ofEntries, hNot hRun, hNot hAnalyzed, hNot hSkipped, hNot hFailed, hNot hParse]

theorem foldlM_addLine {depth : Nat} {entries : List Entry} (h : ∀ e ∈ entries, e.Loggable depth)
    (before : List Entry) : (entries.map (·.line.toList)).foldlM (addLine (depth + 1)) (ofEntries before) =
      .ok (ofEntries (before ++ entries)) := by
  induction entries generalizing before with
  | nil => rw [List.append_nil]; rfl
  | cons e entries ih =>
    obtain ⟨hFirst, hOthers⟩ := List.forall_mem_cons.mp h
    rw [List.map_cons, List.foldlM_cons, addLine_line hFirst, add_ofEntries hFirst, List.append_cons before e entries]
    exact ih hOthers (before ++ [e])

end Statistics

/-- The statistics of a log that was written line by line count its entries by their events, and entries that
were skipped or failed by their reasons and rules. -/
theorem summarize_written_log (depth : Nat) (entries : List Entry) (h : ∀ e ∈ entries, e.Loggable depth) :
    ∃ stats, summarize (depth + 1) (String.join (entries.map fun e => e.line ++ "\n")) = .ok stats ∧
      stats.runs = entries.countP (·.isEvent "run_completed") ∧
      stats.recordsAnalyzed = entries.countP (·.isEvent "record_analyzed") ∧
      stats.recordsSkipped = entries.countP (·.isEvent "record_skipped") ∧
      stats.detectorFailures = entries.countP (·.isEvent "detector_failed") ∧
      stats.parseFailures = entries.countP (·.isEvent "parse_failed") ∧
      stats.skipReasons =
        keyed (tabulate ((entries.filter (·.isEvent "record_skipped")).map (·.fieldText "reason"))) ∧
      stats.failingRules =
        keyed (tabulate ((entries.filter (·.isEvent "detector_failed")).map (·.fieldText "rule_id"))) ∧
      (stats.skipReasons.map (·.2)).sum = stats.recordsSkipped ∧
      (stats.failingRules.map (·.2)).sum = stats.detectorFailures := by
  have hLines : logLinesFrom [] (String.join (entries.map fun e => e.line ++ "\n")).toList =
      entries.map (·.line.toList) := by
    have hPlain : ∀ line ∈ entries.map Entry.line, ∀ c ∈ line.toList, Plain c :=
      List.forall_mem_map.mpr fun e he => (h e he).plain_line
    have hLog := logLines_log hPlain
    rwa [List.map_map, List.map_map] at hLog
  have hSum (event name : String) :
      ((keyed (tabulate ((entries.filter (·.isEvent event)).map (·.fieldText name)))).map (·.2)).sum =
        entries.countP (·.isEvent event) := by
    rw [keyed, List.map_map]
    change ((tabulate _).map (·.2)).sum = _
    rw [sum_tabulate, List.length_map, ← List.countP_eq_length_filter]
  refine ⟨Statistics.ofEntries entries, ?_, rfl, rfl, rfl, rfl, rfl, rfl, rfl, hSum _ _, hSum _ _⟩
  rw [summarize, hLines]
  exact Statistics.foldlM_addLine h []

/-- Strings with marks, line breaks and characters of all planes, a number, a skipped record without a reason, a
failure, and an event that is no string. -/
def trickyEntries : List Entry :=
  [{ message := "a \"b\" \\ \n",
     fields := [("event", .str "run_completed"), ("percent", .real (.finite false ⟨25, 1⟩))] },
   { fields := [("event", .str "record_skipped"), ("path", .str "é\u2028😀.js"), ("reason", .str "\"large\"\r\n😀")] },
   { fields := [("event", .str "record_skipped"), ("size_bytes", .int (-7))] },
   { fields := [("event", .str "detector_failed"), ("rule_id", .str "\t\\u0041")], failure := some ("E", "\n") },
   { fields := [("event", .arr [.str "parse_failed"])] }]

theorem trickyEntries_loggable : ∀ e ∈ trickyEntries, e.Loggable 1 := by
  have hPercent : (Value.real (.finite false ⟨25, 1⟩)).Readable 1 := .real (.inr ⟨by decide, by decide⟩)
  have hSize : (Value.int (-7)).Readable 1 := .int (by decide)
  have hEvent : (Value.arr [.str "parse_failed"]).Readable 1 :=
    .arr (List.forall_mem_singleton.mpr (.str _))
  simp only [trickyEntries, List.forall_mem_cons]
  refine ⟨?_, ?_, ?_, ?_, ?_, by simp⟩ <;> refine .of_fields (.str _) (.str _) ?_
  · simp [hPercent, Value.Readable.str]
  · simp [Value.Readable.str]
  · simp [hSize, Value.Readable.str]
  · simp [Value.Readable.str]
  · simp [hEvent]

theorem trickyEntries_summary :
    (∀ e ∈ trickyEntries, e.Loggable 1) ∧
    summarize 2 (String.join (trickyEntries.map fun e => e.line ++ "\n")) = .ok {
      runs := 1
      recordsSkipped := 2
      detectorFailures := 1
      skipReasons := [(.str "\"large\"\r\n😀", 1), (.str "unknown", 1)]
      failingRules := [(.str "\t\\u0041", 1)] } := by
  obtain ⟨stats, hStats, hRuns, hAnalyzed, hSkipped, hFailed, hParse, hReasons, hRules, -, -⟩ :=
    summarize_written_log 1 trickyEntries trickyEntries_loggable
  refine ⟨trickyEntries_loggable, hStats.trans (congrArg _ ?_)⟩
  cases stats
  rw [Statistics.mk.injEq]
  exact ⟨hRuns.trans rfl, hAnalyzed.trans rfl, hSkipped.trans rfl, hFailed.trans rfl, hParse.trans rfl,
    hReasons.trans (by decide), hRules.trans (by decide)⟩

/-! ## Lines of any kind -/

def countedFields : List (String × String) :=
  [("record_skipped", "reason"), ("detector_failed", "rule_id")]

/-- A list or an object, under which nothing can be counted. -/
def HoldsOthers (v : Value) : Prop :=
  (∃ items, v = .arr items) ∨ ∃ fields, v = .obj fields

/-- A line that stops the count, and what is wrong with it. -/
inductive Faulty (nesting : Nat) (line : List Char) : SummaryFault → Prop
  | notObject {v : Value} (hLine : lineValue nesting line = .ok v) (hValue : ∀ fields, v ≠ .obj fields) :
    Faulty nesting line (.notObject v.form)
  | noKey {fields : List (String × Value)} {event name : String} {v : Value}
    (hLine : lineValue nesting line = .ok (.obj fields)) (hEvent : fields.lookup "event" = some (.str event))
    (hCounted : (event, name) ∈ countedFields) (hField : fields.lookup name = some v) (hValue : HoldsOthers v) :
    Faulty nesting line (.noKey v.form)
  | tooDeep (hLine : lineValue nesting line = .error .tooDeep) : Faulty nesting line .tooDeep
  | tooLong (hLine : lineValue nesting line = .error .tooLong) : Faulty nesting line .tooLong

def Regular (nesting : Nat) (line : List Char) : Prop :=
  ∀ fault, ¬ Faulty nesting line fault

variable {nesting : Nat}

theorem keyOf_eq_error_iff {v : Value} {fault : SummaryFault} :
    keyOf v = .error fault ↔ HoldsOthers v ∧ fault = .noKey v.form := by
  cases v <;> simp [keyOf, HoldsOthers, eq_comm]

theorem fieldKey_eq_error_iff {fields : List (String × Value)} {name : String} {fault : SummaryFault} :
    fieldKey fields name = .error fault ↔
      ∃ v, fields.lookup name = some v ∧ HoldsOthers v ∧ fault = .noKey v.form := by
  rw [fieldKey, keyOf_eq_error_iff]
  cases fields.lookup name with
  | none => simp [HoldsOthers]
  | some v => simp

/-- How a figure of the statistics is called: one of the counts, or a count under a key. -/
inductive Figure where
  | runs
  | recordsAnalyzed
  | recordsSkipped
  | detectorFailures
  | parseFailures
  | reason (key : Key)
  | rule (key : Key)

def countOf (key : Key) : List (Key × Nat) → Nat
  | [] => 0
  | (k, n) :: rest => if k.identity = key.identity then n else countOf key rest

theorem countOf_tally (key k : Key) (counts : List (Key × Nat)) :
    countOf k (tally key counts) = countOf k counts + if key.identity = k.identity then 1 else 0 := by
  induction counts with
  | nil => simp [tally, countOf]
  | cons entry counts ih =>
    obtain ⟨first, n⟩ := entry
    rw [tally]
    split
    · rename_i hSame
      rw [countOf, countOf, hSame]
      split <;> rfl
    · rename_i hOther
      rw [countOf, countOf, ih]
      split
      · rename_i hFirst
        rw [if_neg fun hKey => hOther (hFirst.trans hKey.symm)]
        rfl
      · rfl

namespace Statistics

def figure (s : Statistics) : Figure → Nat
  | .runs => s.runs
  | .recordsAnalyzed => s.recordsAnalyzed
  | .recordsSkipped => s.recordsSkipped
  | .detectorFailures => s.detectorFailures
  | .parseFailures => s.parseFailures
  | .reason key => countOf key s.skipReasons
  | .rule key => countOf key s.failingRules

theorem figure_empty (figure : Figure) : ({} : Statistics).figure figure = 0 := by
  cases figure <;> rfl

/-- Taking in something adds to each figure what it is worth by itself. -/
def Adds (gain : Statistics → Statistics) : Prop :=
  ∀ s figure, (gain s).figure figure = s.figure figure + (gain {}).figure figure

theorem Adds.id : Adds fun s => s := by
  intro s figure
  rw [figure_empty, Nat.add_zero]

theorem Adds.comp {gain next : Statistics → Statistics} (h : Adds gain) (hNext : Adds next) :
    Adds fun s => next (gain s) := by
  intro s figure
  rw [hNext (gain s), hNext (gain {}), h s, Nat.add_assoc]

/-- An object is worth the same whatever was counted before, or it has a field that nothing can be counted under. -/
theorem add_cases (fields : List (String × Value)) :
    (∃ gain, Adds gain ∧ ∀ s : Statistics, s.add fields = .ok (gain s)) ∨
    ∃ event name v, fields.lookup "event" = some (.str event) ∧ (event, name) ∈ countedFields ∧
      fields.lookup name = some v ∧ HoldsOthers v := by
  fun_cases Statistics.add ({} : Statistics) fields with
  | case1 hEvent =>
    refine .inl ⟨fun s => { s with runs := s.runs + 1 }, fun s f => ?_, fun s => by rw [add, hEvent]; rfl⟩
    cases f <;> simp [figure, countOf]
  | case2 hEvent =>
    refine .inl ⟨fun s => { s with recordsAnalyzed := s.recordsAnalyzed + 1 }, fun s f => ?_,
      fun s => by rw [add, hEvent]; rfl⟩
    cases f <;> simp [figure, countOf]
  | case3 hEvent =>
    cases hKey : fieldKey fields "reason" with
    | ok key =>
      refine .inl ⟨fun s => { s with
        recordsSkipped := s.recordsSkipped + 1
        skipReasons := tally key s.skipReasons }, fun s f => ?_, fun s => by rw [add, hEvent, hKey]; rfl⟩
      cases f <;> simp [figure, countOf, countOf_tally]
    | error fault =>
      obtain ⟨v, hField, hValue, -⟩ := fieldKey_eq_error_iff.mp hKey
      exact .inr ⟨_, _, v, hEvent, by simp [countedFields], hField, hValue⟩
  | case4 hEvent =>
    cases hKey : fieldKey fields "rule_id" with
    | ok key =>
      refine .inl ⟨fun s => { s with
        detectorFailures := s.detectorFailures + 1
        failingRules := tally key s.failingRules }, fun s f => ?_, fun s => by rw [add, hEvent, hKey]; rfl⟩
      cases f <;> simp [figure, countOf, countOf_tally]
    | error fault =>
      obtain ⟨v, hField, hValue, -⟩ := fieldKey_eq_error_iff.mp hKey
      exact .inr ⟨_, _, v, hEvent, by simp [countedFields], hField, hValue⟩
  | case5 hEvent =>
    refine .inl ⟨fun s => { s with parseFailures := s.parseFailures + 1 }, fun s f => ?_,
      fun s => by rw [add, hEvent]; rfl⟩
    cases f <;> simp [figure, countOf]
  | case6 hRun hAnalyzed hSkipped hFailed hParse =>
    refine .inl ⟨fun s => s, .id, fun s => ?_⟩
    unfold add
    split
    case h_1 hEvent => exact (hRun hEvent).elim
    case h_2 hEvent => exact (hAnalyzed hEvent).elim
    case h_3 hEvent => exact (hSkipped hEvent).elim
    case h_4 hEvent => exact (hFailed hEvent).elim
    case h_5 hEvent => exact (hParse hEvent).elim
    case h_6 => rfl

theorem addLine_of_faulty {line : List Char} {fault : SummaryFault} (h : Faulty nesting line fault) (s : Statistics) :
    s.addLine nesting line = .error fault := by
  cases h with
  | @notObject v hLine hValue =>
    rw [addLine, hLine]
    cases v with
    | obj fields => exact absurd rfl (hValue fields)
    | _ => rfl
  | @noKey fields event name v hLine hEvent hCounted hField hValue =>
    have hKey : fieldKey fields name = .error (.noKey v.form) := fieldKey_eq_error_iff.mpr ⟨v, hField, hValue, rfl⟩
    rw [addLine, hLine]
    change s.add fields = _
    simp only [countedFields, List.mem_cons, Prod.mk.injEq, List.not_mem_nil, or_false] at hCounted
    obtain ⟨rfl, rfl⟩ | ⟨rfl, rfl⟩ := hCounted <;>
    · rw [add, hEvent, hKey]
      rfl
  | tooDeep hLine => rw [addLine, hLine]
  | tooLong hLine => rw [addLine, hLine]

/-- A line that is no JSON changes nothing. -/
theorem addLine_of_malformed {line : List Char} {cause : Cause} {rest : Nat}
    (h : lineValue nesting line = .error (.malformed cause rest)) (s : Statistics) :
    s.addLine nesting line = .ok s := by
  rw [addLine, h]

/-- A line that is not faulty is worth the same whatever was counted before. -/
theorem addLine_cases (line : List Char) :
    (∃ gain, Adds gain ∧ ∀ s : Statistics, s.addLine nesting line = .ok (gain s)) ∨
      ∃ fault, Faulty nesting line fault := by
  cases hLine : lineValue nesting line with
  | error failure =>
    cases failure with
    | malformed cause rest => exact .inl ⟨fun s => s, .id, addLine_of_malformed hLine⟩
    | tooDeep => exact .inr ⟨_, .tooDeep hLine⟩
    | tooLong => exact .inr ⟨_, .tooLong hLine⟩
  | ok v =>
    by_cases hObject : ∃ fields, v = .obj fields
    · obtain ⟨fields, rfl⟩ := hObject
      obtain ⟨gain, hAdds, hGain⟩ | ⟨event, name, v, hEvent, hCounted, hField, hValue⟩ := add_cases fields
      · refine .inl ⟨gain, hAdds, fun s => ?_⟩
        rw [addLine, hLine]
        exact hGain s
      · exact .inr ⟨_, .noKey hLine hEvent hCounted hField hValue⟩
    · exact .inr ⟨_, .notObject hLine (not_exists.mp hObject)⟩

/-! ## Runs of lines -/

/-- Regular nesting lines add up, whatever was counted before. -/
theorem foldlM_addLine_of_regular {lines : List (List Char)} (h : ∀ line ∈ lines, Regular nesting line) :
    ∃ gain, Adds gain ∧ ∀ s : Statistics, lines.foldlM (addLine nesting) s = .ok (gain s) := by
  induction lines with
  | nil => exact ⟨fun s => s, .id, fun s => rfl⟩
  | cons line lines ih =>
    obtain ⟨hFirst, hOthers⟩ := List.forall_mem_cons.mp h
    obtain ⟨next, hNextAdds, hNext⟩ := ih hOthers
    obtain ⟨gain, hAdds, hGain⟩ | ⟨fault, hFaulty⟩ := addLine_cases line
    · refine ⟨fun s => next (gain s), hAdds.comp hNextAdds, fun s => ?_⟩
      rw [List.foldlM_cons, hGain]
      exact hNext (gain s)
    · exact absurd hFaulty (hFirst fault)

end Statistics

theorem exists_first_faulty (lines : List (List Char)) :
    (∀ line ∈ lines, Regular nesting line) ∨
    ∃ front line back fault, lines = front ++ line :: back ∧ (∀ l ∈ front, Regular nesting l) ∧
      Faulty nesting line fault := by
  induction lines with
  | nil => exact .inl (by simp)
  | cons line lines ih =>
    by_cases hFirst : Regular nesting line
    · obtain hAll | ⟨front, bad, back, fault, rfl, hFront, hFaulty⟩ := ih
      · exact .inl (List.forall_mem_cons.mpr ⟨hFirst, hAll⟩)
      · exact .inr ⟨line :: front, bad, back, fault, rfl, List.forall_mem_cons.mpr ⟨hFirst, hFront⟩, hFaulty⟩
    · obtain ⟨fault, hFaulty⟩ := not_forall_not.mp hFirst
      exact .inr ⟨[], line, lines, fault, rfl, by simp, hFaulty⟩

theorem exists_gather_of_regular {lines : List (List Char)} (h : ∀ line ∈ lines, Regular nesting line) :
    ∃ stats, gather nesting lines = .ok stats := by
  obtain ⟨gain, -, hGain⟩ := Statistics.foldlM_addLine_of_regular h
  exact ⟨gain {}, hGain {}⟩

theorem gather_of_faulty {front : List (List Char)} (hFront : ∀ line ∈ front, Regular nesting line)
    {line : List Char} {fault : SummaryFault} (h : Faulty nesting line fault) (back : List (List Char)) :
    gather nesting (front ++ line :: back) = .error fault := by
  obtain ⟨gain, -, hGain⟩ := Statistics.foldlM_addLine_of_regular hFront
  rw [gather, List.foldlM_append, hGain]
  change (line :: back).foldlM (Statistics.addLine nesting) (gain {}) = _
  rw [List.foldlM_cons, Statistics.addLine_of_faulty h]
  rfl

/-- The count stops at the first faulty line, with its fault. -/
theorem gather_eq_error_iff {lines : List (List Char)} {fault : SummaryFault} :
    gather nesting lines = .error fault ↔
      ∃ front line back, lines = front ++ line :: back ∧ (∀ l ∈ front, Regular nesting l) ∧
        Faulty nesting line fault := by
  constructor
  · intro h
    obtain hAll | ⟨front, line, back, fault', rfl, hFront, hFaulty⟩ := exists_first_faulty lines
    · obtain ⟨stats, hStats⟩ := exists_gather_of_regular hAll
      rw [hStats] at h
      cases h
    · rw [gather_of_faulty hFront hFaulty] at h
      cases h
      exact ⟨front, line, back, rfl, hFront, hFaulty⟩
  · rintro ⟨front, line, back, rfl, hFront, hFaulty⟩
    exact gather_of_faulty hFront hFaulty back

/-- Lines can be counted exactly if all of them are regular. -/
theorem exists_gather_iff {lines : List (List Char)} :
    (∃ stats, gather nesting lines = .ok stats) ↔ ∀ line ∈ lines, Regular nesting line := by
  constructor
  · rintro ⟨stats, h⟩
    obtain hAll | ⟨front, line, back, fault, hLines, hFront, hFaulty⟩ := exists_first_faulty lines
    · exact hAll
    · rw [hLines, gather_of_faulty hFront hFaulty] at h
      cases h
  · exact exists_gather_of_regular

/-- A line that is no object is passed over, if it does not stop the count. -/
theorem gather_of_not_object (front back : List (List Char)) {line : List Char} (hRegular : Regular nesting line)
    (h : ∀ fields, lineValue nesting line ≠ .ok (.obj fields)) :
    gather nesting (front ++ line :: back) = gather nesting (front ++ back) := by
  obtain ⟨cause, rest, hMalformed⟩ : ∃ cause rest, lineValue nesting line = .error (.malformed cause rest) := by
    cases hLine : lineValue nesting line with
    | error failure =>
      cases failure with
      | malformed cause rest => exact ⟨cause, rest, rfl⟩
      | tooDeep => exact (hRegular _ (.tooDeep hLine)).elim
      | tooLong => exact (hRegular _ (.tooLong hLine)).elim
    | ok v => exact (hRegular _ (.notObject hLine fun fields hValue => h fields (hValue ▸ hLine))).elim
  have hLine (s : Statistics) :
      (line :: back).foldlM (Statistics.addLine nesting) s = back.foldlM (Statistics.addLine nesting) s := by
    rw [List.foldlM_cons, Statistics.addLine_of_malformed hMalformed]
    rfl
  rw [gather, gather, List.foldlM_append, List.foldlM_append]
  simp only [hLine]

/-- The figures of two runs of lines are added up. -/
theorem gather_append {front back : List (List Char)} {a b : Statistics} (ha : gather nesting front = .ok a)
    (hb : gather nesting back = .ok b) :
    ∃ c, gather nesting (front ++ back) = .ok c ∧ ∀ figure, c.figure figure = a.figure figure + b.figure figure := by
  obtain ⟨gain, hAdds, hGain⟩ := Statistics.foldlM_addLine_of_regular (exists_gather_iff.mp ⟨b, hb⟩)
  obtain rfl : gain {} = b := Except.ok.inj ((hGain {}).symm.trans hb)
  refine ⟨gain a, ?_, hAdds a⟩
  change front.foldlM (Statistics.addLine nesting) {} = _ at ha
  rw [gather, List.foldlM_append, ha]
  exact hGain a

/-- A log can be summarized exactly if all its lines are regular, and otherwise fails with the fault of
its first faulty line. A regular line that is no object changes nothing, and the figures of two runs of
lines are added up when one is put behind the other. -/
theorem log_counted_line_by_line (nesting : Nat) (log : String) (front back : List (List Char)) :
    ((∃ stats, summarize nesting log = .ok stats) ↔ ∀ line ∈ logLinesFrom [] log.toList, Regular nesting line) ∧
    (∀ fault, summarize nesting log = .error fault ↔
      ∃ before line after, logLinesFrom [] log.toList = before ++ line :: after ∧ (∀ l ∈ before, Regular nesting l) ∧
        Faulty nesting line fault) ∧
    (∀ line, Regular nesting line → (∀ fields, lineValue nesting line ≠ .ok (.obj fields)) →
      gather nesting (front ++ line :: back) = gather nesting (front ++ back)) ∧
    ∀ a b, gather nesting front = .ok a → gather nesting back = .ok b →
      ∃ c, gather nesting (front ++ back) = .ok c ∧ ∀ figure, c.figure figure = a.figure figure + b.figure figure := by
  refine ⟨?_, fun fault => ?_, fun line => gather_of_not_object front back, fun a b => gather_append⟩
  · rw [← exists_gather_iff, summarize]
  · rw [← gather_eq_error_iff, summarize]

/-- A line that breaks off, and a record that was skipped for no reason. -/
def patchyFront : List (List Char) :=
  ["\x7b\"event\":".toList, "\x7b\"event\": \"record_skipped\", \"reason\": null\x7d".toList]

/-- A record that was skipped for a text that is written like no reason, and a rule that is a number once
and then a truth value. -/
def patchyBack : List (List Char) :=
  ["\x7b\"event\": \"record_skipped\", \"reason\": \"null\"\x7d".toList,
    "\x7b\"event\": \"detector_failed\", \"rule_id\": 1\x7d".toList,
    "\x7b\"event\": \"detector_failed\", \"rule_id\": true\x7d".toList]

theorem gather_eq_ok_of_view {lines : List (List Char)} {stats : Statistics}
    (h : (gather nesting lines).toOption = some stats) : gather nesting lines = .ok stats := by
  cases hGather : gather nesting lines with
  | error fault =>
    rw [hGather] at h
    cases h
  | ok found =>
    rw [hGather] at h
    exact congrArg Except.ok (Option.some.inj h)

theorem patchyLines_add_up :
    gather 1 patchyFront = gather 1 patchyFront.tail ∧
    ∃ a b c, gather 1 patchyFront = .ok a ∧ gather 1 patchyBack = .ok b ∧ gather 1 (patchyFront ++ patchyBack) = .ok c ∧
      c.figure .recordsSkipped = 2 ∧ c.figure (.reason .null) = 1 ∧ c.figure (.reason (.str "null")) = 1 ∧
      c.figure (.rule (.bool true)) = 2 := by
  obtain ⟨-, -, hPassed, -⟩ := log_counted_line_by_line 1 "" [] patchyFront.tail
  obtain ⟨-, -, -, hSum⟩ := log_counted_line_by_line 1 "" patchyFront patchyBack
  have hFront : gather 1 patchyFront = .ok { recordsSkipped := 1, skipReasons := [(.null, 1)] } :=
    gather_eq_ok_of_view (by decide +kernel)
  have hBack : gather 1 patchyBack = .ok {
      recordsSkipped := 1
      detectorFailures := 2
      skipReasons := [(.str "null", 1)]
      failingRules := [(.int 1, 2)] } :=
    gather_eq_ok_of_view (by decide +kernel)
  have hRegular : Regular 1 "\x7b\"event\":".toList := exists_gather_iff.mp ⟨_, hFront⟩ _ List.mem_cons_self
  have hUnread : (lineValue 1 "\x7b\"event\":".toList).toOption.isNone = true := by decide +kernel
  refine ⟨hPassed _ hRegular fun fields hObject => ?_, ?_⟩
  · rw [hObject] at hUnread
    cases hUnread
  · obtain ⟨c, hAll, hFigures⟩ := hSum _ _ hFront hBack
    refine ⟨_, _, c, hFront, hBack, hAll, ?_⟩
    simp only [hFigures]
    decide +kernel

def listedLog : String :=
  "[1]\n\x7b\"event\": \"run_completed\"\x7d\n"

/-- A line with a list stops the count: the run behind it is not counted. -/
theorem listedLog_fails : summarize 1000 listedLog = .error (.notObject "list") := by
  have hLines : logLinesFrom [] listedLog.toList =
      "[1]".toList :: ["\x7b\"event\": \"run_completed\"\x7d".toList] := by
    decide +kernel
  have hFaulty : Faulty 1000 "[1]".toList (.notObject "list") :=
    .notObject (rfl : lineValue 1000 "[1]".toList = .ok (.arr [.int 1])) (fun _ h => Value.noConfusion h)
  have hGather (back : List (List Char)) : gather 1000 ([] ++ "[1]".toList :: back) = .error (.notObject "list") :=
    gather_of_faulty (fun _ h => absurd h List.not_mem_nil) hFaulty back
  rw [summarize, hLines]
  exact hGather _

end WebAudit.Journal

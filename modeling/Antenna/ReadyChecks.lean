import Antenna.TickSteps

/-!
Which events the worker takes for a ready account. It searches the event's line for the name of the
class, so every text that the line carries can name it.
-/

namespace LeanAntenna

open Text Replay Turtle

/-- The account of the event or one of its texts holds the name of the ready class. -/
def CarrierEvent.Mentions (event : CarrierEvent) : Prop :=
  accountReadyName <:+: event.account ∨
    ∃ field ∈ event.data.fields, ∃ value, field.value = .text value ∧ accountReadyName <:+: value

section Naming

theorem readyName_shape : ' ' ∉ accountReadyName ∧ '"' ∉ accountReadyName ∧
    accountReadyName ≠ [] ∧ 'c' ∈ accountReadyName ∧ Unescaped accountReadyName ∧
    ∀ c ∈ accountReadyName.head?, c ∉ ['n', 'r'] := by
  decide

/-- No other class and no predicate is written with the name. -/
theorem readyName_className (type : CarrierEventType) :
    accountReadyName <:+: "carrier:".toList ++ type.className ↔ type = .accountReady := by
  cases type <;> decide

theorem not_readyName_predicate {name : Text} (plain : ':' ∉ name) (lower : name.head? ≠ some 'A') :
    ¬ accountReadyName <:+: "carrier:".toList ++ name := by
  rintro ⟨front, back, same⟩
  have parts : accountReadyName = "carrier".toList ++ ':' :: "AccountReady".toList := by decide
  have prefixed : "carrier:".toList = "carrier".toList ++ [':'] := by decide
  have single : ':' ∉ "carrier".toList := by decide
  rw [parts, prefixed] at same
  have once : ':' ∉ front ++ "carrier".toList := by
    have counted := congrArg (List.count ':') same
    simp only [List.count_append, List.count_cons, List.count_eq_zero_of_not_mem plain,
      List.count_eq_zero_of_not_mem single] at counted
    rw [List.mem_append, not_or]
    refine ⟨List.count_eq_zero.mp ?_, single⟩
    simp at counted
    omega
  have left : splitOnce ':' ((front ++ "carrier".toList) ++ ':' :: ("AccountReady".toList ++ back)) =
      some (front ++ "carrier".toList, "AccountReady".toList ++ back) := splitOnce_first once
  have right : splitOnce ':' ("carrier".toList ++ ':' :: name) = some ("carrier".toList, name) :=
    splitOnce_first single
  have texts : (front ++ "carrier".toList) ++ ':' :: ("AccountReady".toList ++ back) =
      "carrier".toList ++ ':' :: name := by
    simpa only [List.append_assoc, List.cons_append, List.nil_append] using same
  rw [texts, right] at left
  have named := congrArg Prod.snd (Option.some.inj left)
  refine lower ?_
  rw [show name = "AccountReady".toList ++ back from named]
  rfl

/-- A text in quotes names it exactly if the text does. -/
theorem readyName_quoted (value : Text) :
    accountReadyName <:+: (quotedToken value).text ↔ accountReadyName <:+: value := by
  obtain ⟨-, unquoted, nonempty, -, unescaped, starts⟩ := readyName_shape
  have text : (quotedToken value).text = [] ++ '"' :: (eventEscape value ++ '"' :: []) := by
    simp [quotedToken, Token.text, Quote.text, Suffix.text]
  rw [text, infix_barrier unquoted nonempty, infix_barrier unquoted nonempty,
    infix_eventEscape_iff unescaped starts]
  simp [nonempty]

theorem readyName_fieldToken (value : FieldValue) :
    accountReadyName <:+: value.token.text ↔
      ∃ text, value = .text text ∧ accountReadyName <:+: text := by
  cases value with
  | text value => simp [FieldValue.token, readyName_quoted]
  | integer value =>
      have letter : 'c' ∈ accountReadyName := by decide
      have numeral := decimal_numeral value 'c'
      constructor
      · exact fun inside => absurd (numeral (inside.subset letter)) (by decide)
      · rintro ⟨text, other, -⟩
        contradiction

theorem not_readyName_timestamp (timestamp : Int64) :
    ¬ accountReadyName <:+: (dateTimeToken timestamp).text := by
  intro inside
  have letter : 'c' ∈ accountReadyName := by decide
  have held := inside.subset letter
  have suffix : 'c' ∉ ['"'] ∧ 'c' ∉ Suffix.text (.typed (.prefixed "xsd".toList "dateTime".toList)) := by
    decide
  simp only [dateTimeToken, Token.text, List.mem_append] at held
  rcases held with ((quote | stamp) | quote) | datatype
  · exact suffix.1 quote
  · exact absurd (formatTimestamp_numeral timestamp 'c' stamp) (by decide)
  · exact suffix.1 quote
  · exact suffix.2 datatype

/-- A line names the class where its first word, a predicate or a value does. -/
theorem readyName_entries (entries : List Entry) (word : Text) :
    accountReadyName <:+: word ++ (entries.flatMap Entry.text ++ " .".toList) ↔
      accountReadyName <:+: word ∨ ∃ entry ∈ entries,
        accountReadyName <:+: "carrier:".toList ++ entry.name ∨
          accountReadyName <:+: entry.token.text := by
  obtain ⟨solid, -, nonempty, -⟩ := readyName_shape
  induction entries generalizing word with
  | nil =>
      have dot : ¬ accountReadyName <:+: ['.'] := by decide
      have text : word ++ (([] : List Entry).flatMap Entry.text ++ " .".toList) =
          word ++ ' ' :: ['.'] := rfl
      rw [text, infix_barrier solid nonempty]
      simp [dot]
  | cons entry entries ih =>
      have semicolon : ¬ accountReadyName <:+: [';'] := by decide
      have text : word ++ ((entry :: entries).flatMap Entry.text ++ " .".toList) =
          word ++ ' ' :: ([';'] ++ ' ' :: (("carrier:".toList ++ entry.name) ++ ' ' ::
            (entry.token.text ++ (entries.flatMap Entry.text ++ " .".toList)))) := by
        rw [List.flatMap_cons]
        unfold Entry.text
        simp only [List.append_assoc]
        rfl
      rw [text, infix_barrier solid nonempty, infix_barrier solid nonempty,
        infix_barrier solid nonempty, ih]
      simp only [semicolon, false_or, List.mem_cons, exists_eq_or_imp, or_assoc]

theorem fieldNames_unready (type : CarrierEventType) :
    ∀ name ∈ type.fieldNames, ':' ∉ name ∧ name.head? ≠ some 'A' := by
  cases type <;> decide

theorem not_readyName_entry {event : CarrierEvent} {entry : Entry} (member : entry ∈ event.entries) :
    ¬ accountReadyName <:+: "carrier:".toList ++ entry.name := by
  have own : (':' ∉ "account".toList ∧ "account".toList.head? ≠ some 'A') ∧
      ':' ∉ "at".toList ∧ "at".toList.head? ≠ some 'A' := by decide
  simp only [CarrierEvent.entries, List.mem_append, List.mem_map, List.mem_filter,
    List.mem_singleton] at member
  rcases member with (account | ⟨field, ⟨inside, -⟩, rfl⟩) | rfl
  · unfold CarrierEvent.accountEntries at account
    split at account
    · simp at account
    · rw [List.mem_singleton] at account
      subst account
      exact not_readyName_predicate own.1.1 own.1.2
  · obtain ⟨plain, lower⟩ := fieldNames_unready _ _ (field_name_mem inside)
    exact not_readyName_predicate plain lower
  · exact not_readyName_predicate own.2.1 own.2.2

theorem mentions_iff_entry (event : CarrierEvent) :
    (∃ entry ∈ event.entries, accountReadyName <:+: entry.token.text) ↔ event.Mentions := by
  have nonempty : ¬ accountReadyName <:+: [] := by simp [readyName_shape.2.2.1]
  constructor
  · rintro ⟨entry, member, inside⟩
    simp only [CarrierEvent.entries, List.mem_append, List.mem_map, List.mem_filter,
      List.mem_singleton] at member
    rcases member with (account | ⟨field, ⟨listed, -⟩, rfl⟩) | rfl
    · unfold CarrierEvent.accountEntries at account
      split at account
      · simp at account
      · rw [List.mem_singleton] at account
        subst account
        exact Or.inl ((readyName_quoted event.account).mp inside)
    · exact Or.inr ⟨field, listed, (readyName_fieldToken field.value).mp inside⟩
    · exact absurd inside (not_readyName_timestamp event.timestamp)
  · rintro (account | ⟨field, listed, text, value, inside⟩)
    · have filled : event.account ≠ [] := by
        intro empty
        rw [empty] at account
        exact nonempty account
      refine ⟨quotedEntry "account".toList event.account, ?_, (readyName_quoted _).mpr account⟩
      simp [CarrierEvent.entries, CarrierEvent.accountEntries, filled]
    · have present : field.present = true := by
        by_contra absent
        rw [Bool.not_eq_true] at absent
        have empty := ((fields_leftOut event.data field listed).mp absent).2
        rw [value, FieldValue.text.injEq] at empty
        rw [empty] at inside
        exact nonempty inside
      refine ⟨field.entry, ?_, (readyName_fieldToken field.value).mpr ⟨text, value, inside⟩⟩
      simp only [CarrierEvent.entries, List.mem_append, List.mem_map, List.mem_filter]
      exact Or.inl (Or.inr ⟨field, ⟨listed, present⟩, rfl⟩)

/-- The worker takes an event for a ready account if it is one or mentions one. -/
theorem contains_readyName_iff (event : CarrierEvent) :
    contains (eventToTurtle event) accountReadyName = true ↔
      event.data.type = .accountReady ∨ event.Mentions := by
  obtain ⟨solid, -, nonempty, -⟩ := readyName_shape
  have start : "[] a carrier:".toList =
      "[]".toList ++ ' ' :: ("a".toList ++ ' ' :: "carrier:".toList) := by decide
  have unnamed : ¬ accountReadyName <:+: "[]".toList ∧ ¬ accountReadyName <:+: "a".toList := by
    decide
  have text : eventToTurtle event = "[]".toList ++ ' ' :: ("a".toList ++ ' ' ::
      (("carrier:".toList ++ event.data.type.className) ++
        (event.entries.flatMap Entry.text ++ " .".toList))) := by
    rw [eventToTurtle_eq, start]
    simp only [List.append_assoc, List.cons_append]
  rw [contains_iff, text, infix_barrier solid nonempty, infix_barrier solid nonempty,
    readyName_entries, readyName_className, ← mentions_iff_entry]
  simp only [unnamed, false_or]
  refine or_congr_right ⟨?_, ?_⟩
  · rintro ⟨entry, member, named | inside⟩
    · exact absurd named (not_readyName_entry member)
    · exact ⟨entry, member, inside⟩
  · exact fun ⟨entry, member, inside⟩ => ⟨entry, member, Or.inr inside⟩

end Naming

section Activities

variable {Store Carrier : Type} (host : Host Store Carrier)

/-- The effects of the step from one context to the next. -/
def added (before after : Context Store Carrier) : List Effect :=
  after.world.effects.drop before.world.effects.length

namespace Context

/-- The activity sets the account id, takes the pending export path or, on an event, exports. -/
def Touches (context : Context Store Carrier) (activity : Activity Carrier) : Prop :=
  (context.perform host activity).accountId ≠ context.accountId ∨
    .takeAutoExport ∈ added context (context.perform host activity) ∨
    ∃ event, activity = .event event ∧ ∃ account path,
      .call (.exportAccount account path none) ∈ added context (context.perform host activity)

/-- Only the event of a ready account does so. -/
def OnlyReady (context : Context Store Carrier) (activity : Activity Carrier) : Prop :=
  context.Touches host activity →
    ∃ event, activity = .event event ∧ event.data.type = .accountReady

end Context

theorem untaken_of_continues {before after : Context Store Carrier} {start : World Store Carrier}
    (continues : Continues start after.world) (same : start.effects = before.world.effects) :
    Effect.takeAutoExport ∉ added before after := by
  obtain ⟨more, effects, untaken, -⟩ := continues
  rw [added, effects, same, List.drop_left]
  exact untaken

theorem continues_callCarrier (world : World Store Carrier) (call : CarrierCall) :
    Continues world (world.callCarrier host call) := ⟨[.call call], rfl, by simp, rfl⟩

theorem continues_publish (world : World Store Carrier) (line : Text) :
    Continues world (world.publish host line) :=
  ⟨[.send line, .beforeInsert line, .insert line, .afterInsert line],
    by simp [World.publish, World.send, World.record, World.insertTurtle], by simp, rfl⟩

/-- Startup dispatches the theme request, which is no create command. -/
theorem startup_untaken (context : Context Store Carrier) :
    (context.startup host).accountId = context.accountId ∧
      Effect.takeAutoExport ∉ added context (context.startup host) := by
  unfold Context.startup
  split
  · simp [added]
  · have dispatched := continues_dispatch context.world host true context.accountId
      "[] a design:ResolveActiveTheme .".toList
    cases context.pendingAccountLoad with
    | none => exact ⟨rfl, untaken_of_continues dispatched rfl⟩
    | some id =>
        exact ⟨rfl, untaken_of_continues
          (dispatched.trans (continues_callCarrier host _ (.loadAccount id))) rfl⟩

theorem bootstrap_untaken (context : Context Store Carrier) :
    (context.bootstrap host).accountId = context.accountId ∧
      Effect.takeAutoExport ∉ added context (context.bootstrap host) := by
  unfold Context.bootstrap
  cases context.bootstrapEmit with
  | none => simp [added]
  | some line => exact ⟨rfl, untaken_of_continues (continues_publish host _ line) rfl⟩

/-- The lines of other events are only published. -/
theorem handleEvent_other {context : Context Store Carrier} {event : CarrierEvent}
    (unlike : ¬ contains (eventToTurtle event) accountReadyName = true) :
    context.handleEvent host event =
      { context with world := context.world.publish host (eventToTurtle event) } := by
  rw [Context.handleEvent, if_neg unlike]

def published (line : Text) : List Effect :=
  [.send line, .beforeInsert line, .insert line, .afterInsert line]

theorem publish_effects (world : World Store Carrier) (line : Text) :
    (world.publish host line).effects = world.effects ++ published line := by
  simp [World.publish, World.send, World.record, World.insertTurtle, published]

/-- The export that the line of a ready account sets off. -/
def Context.autoExport (context : Context Store Carrier) (line : Text) : List Effect :=
  match context.world.pendingAutoExport with
  | some path =>
      let account := accountInForce context.accountId line
      if account = [] then [] else [.call (.exportAccount account path none)]
  | none => []

theorem accountReady_effects (context : Context Store Carrier) (line : Text) :
    (context.accountReady host line).world.effects =
      context.world.effects ++ .takeAutoExport :: context.autoExport line := by
  unfold Context.accountReady Context.autoExport
  cases context.world.pendingAutoExport with
  | none => rfl
  | some path =>
      dsimp only
      split
      · rfl
      · simp [World.callCarrier, World.record]

theorem accountReady_pending (context : Context Store Carrier) (line : Text) :
    (context.accountReady host line).world.pendingAutoExport = none := by
  unfold Context.accountReady
  cases context.world.pendingAutoExport with
  | none => rfl
  | some path =>
      dsimp only
      split <;> rfl

theorem handleEvent_pending (context : Context Store Carrier) {event : CarrierEvent}
    (like : contains (eventToTurtle event) accountReadyName = true) :
    (context.handleEvent host event).world.pendingAutoExport = none := by
  rw [Context.handleEvent, if_pos like]
  exact accountReady_pending host context (eventToTurtle event)

theorem added_ready (context : Context Store Carrier) {event : CarrierEvent}
    (like : contains (eventToTurtle event) accountReadyName = true) :
    added context (context.handleEvent host event) =
      .takeAutoExport :: context.autoExport (eventToTurtle event) ++
        published (eventToTurtle event) := by
  rw [Context.handleEvent, if_pos like, added, publish_effects, accountReady_effects,
    List.append_assoc, List.drop_left]

theorem added_other (context : Context Store Carrier) {event : CarrierEvent}
    (unlike : ¬ contains (eventToTurtle event) accountReadyName = true) :
    added context (context.handleEvent host event) = published (eventToTurtle event) := by
  rw [handleEvent_other host unlike, added, publish_effects, List.drop_left]

theorem dispatched_untaken (context : Context Store Carrier) (line : Text) :
    Effect.takeAutoExport ∉ added context (context.dispatched host context.accountId line) :=
  untaken_of_continues (continues_dispatch context.world host true context.accountId line) rfl

/-- Exactly the events whose line names the class do what only a ready account should. -/
theorem touches_iff (context : Context Store Carrier) (activity : Activity Carrier) :
    context.Touches host activity ↔
      ∃ event, activity = .event event ∧
        contains (eventToTurtle event) accountReadyName = true := by
  constructor
  · intro touches
    by_contra unready
    have quiet : (context.perform host activity).accountId = context.accountId ∧
        Effect.takeAutoExport ∉ added context (context.perform host activity) ∧
        ∀ event, activity = .event event →
          added context (context.perform host activity) = published (eventToTurtle event) := by
      cases activity with
      | startup => exact ⟨(startup_untaken host context).1, (startup_untaken host context).2, by simp⟩
      | bootstrap =>
          exact ⟨(bootstrap_untaken host context).1, (bootstrap_untaken host context).2, by simp⟩
      | clock carrier => exact ⟨rfl, by simp [added, Context.perform, World.record], by simp⟩
      | event event =>
          have unlike : ¬ contains (eventToTurtle event) accountReadyName = true :=
            fun like => unready ⟨event, rfl, like⟩
          have effects := added_other host context unlike
          refine ⟨?_, ?_, ?_⟩
          · rw [Context.perform, handleEvent_other host unlike]
          · rw [Context.perform, effects]
            simp [published]
          · rintro other ⟨⟩
            exact effects
      | line line =>
          refine ⟨?_, ?_, by simp⟩
          · simp only [Context.perform]
            split <;> rfl
          · simp only [Context.perform]
            split
            · simp [added]
            · exact dispatched_untaken host context line
      | query sparql => exact ⟨rfl, by simp [added, Context.perform, World.record], by simp⟩
      | emit line => exact ⟨rfl, dispatched_untaken host context line, by simp⟩
    obtain ⟨kept, untaken, effects⟩ := quiet
    rcases touches with changed | taken | ⟨event, same, account, path, exported⟩
    · exact changed kept
    · exact untaken taken
    · rw [effects event same] at exported
      simp [published] at exported
  · rintro ⟨event, rfl, like⟩
    refine Or.inr (Or.inl ?_)
    rw [Context.perform, added_ready host context like]
    simp

theorem onlyReady_iff (context : Context Store Carrier) (activity : Activity Carrier) :
    context.OnlyReady host activity ↔
      ∀ event, activity = .event event → event.Mentions → event.data.type = .accountReady := by
  rw [Context.OnlyReady, touches_iff]
  simp only [contains_readyName_iff]
  constructor
  · rintro only event rfl mentions
    obtain ⟨other, same, ready⟩ := only ⟨event, rfl, Or.inr mentions⟩
    cases same
    exact ready
  · rintro each ⟨event, rfl, ready | mentions⟩
    · exact ⟨event, rfl, ready⟩
    · exact ⟨event, rfl, each event rfl mentions⟩

theorem event_mem_activities {inputs : TickInputs Carrier} {event : CarrierEvent} :
    .event event ∈ inputs.activities ↔ inputs.iterated = .ok () ∧ event ∈ inputs.events := by
  unfold TickInputs.activities
  cases inputs.iterated with
  | error reason => simp
  | ok done => simp

/-- In a run of ticks only the events of ready accounts set the account id, take the pending path
or export, exactly if no other event mentions the class. -/
theorem ticks_onlyReady_iff (context : Context Store Carrier) (ticks : List (TickInputs Carrier)) :
    replay (Context.tick host) context ticks =
      replay (Context.perform host) context (ticks.flatMap TickInputs.activities) ∧
    (Throughout (Context.perform host) (Context.OnlyReady host) context
        (ticks.flatMap TickInputs.activities) ↔
      ∀ inputs ∈ ticks, inputs.iterated = .ok () → ∀ event ∈ inputs.events,
        event.Mentions → event.data.type = .accountReady) := by
  refine ⟨Context.ticks_eq_replay host context ticks, ?_⟩
  rw [throughout_congr fun context activity _ => onlyReady_iff host context activity,
    throughout_action]
  constructor
  · intro each inputs member iterated event inside
    exact each (.event event)
      (List.mem_flatMap.mpr ⟨inputs, member, event_mem_activities.mpr ⟨iterated, inside⟩⟩) event rfl
  · rintro each activity member event rfl
    obtain ⟨inputs, listed, inside⟩ := List.mem_flatMap.mp member
    obtain ⟨iterated, inside⟩ := event_mem_activities.mp inside
    exact each inputs listed iterated event inside

/-- A context that waits for its account with a path to export it to. -/
def waiting (account path : Text) : Context Unit Unit where
  world := { store := (), carrier := (), pendingAutoExport := some path, effects := [] }
  accountId := account
  bootstrapEmit := none
  pendingAccountLoad := none
  startupEmitted := true

/-- A peer's message whose text is the name of the ready class. -/
def forgedReady : CarrierEvent where
  timestamp := 0
  accountId := Vector.replicate 64 0
  data := .textMessage (Vector.replicate 128 0) (Vector.replicate 64 0) (Vector.replicate 64 0)
    (some (Utf8.encode accountReadyName))

def forgedTick : TickInputs Unit where
  carrier := ()
  iterated := .ok ()
  events := [forgedReady]
  lines := []
  queries := []
  emits := []

theorem message_takes_export :
    forgedReady.data.type = .textMessage ∧
      ((waiting "alice".toList "/backup".toList).perform idleHost
        (.event forgedReady)).world.pendingAutoExport = none ∧
      .call (.exportAccount "alice".toList "/backup".toList none) ∈
        ((waiting "alice".toList "/backup".toList).perform idleHost
          (.event forgedReady)).world.effects ∧
      ¬ Throughout (Context.perform idleHost) (Context.OnlyReady idleHost)
        (waiting "alice".toList "/backup".toList) forgedTick.activities := by
  have mentions : forgedReady.Mentions := by
    refine Or.inr ⟨.required "text" accountReadyName, ?_, accountReadyName, rfl, List.infix_rfl⟩
    simp [forgedReady, CarrierEventData.fields, bytesToString, Utf8.lossy_encode]
  have like := (contains_readyName_iff forgedReady).mpr (Or.inr mentions)
  have effects := added_ready idleHost (waiting "alice".toList "/backup".toList) like
  refine ⟨rfl, ?_, ?_, ?_⟩
  · exact handleEvent_pending idleHost _ like
  · have exported : .call (.exportAccount "alice".toList "/backup".toList none) ∈
        added (waiting "alice".toList "/backup".toList)
          ((waiting "alice".toList "/backup".toList).handleEvent idleHost forgedReady) := by
      rw [effects]
      exact List.mem_cons_of_mem _ (List.mem_append_left _ (List.mem_singleton.mpr rfl))
    exact List.mem_of_mem_drop exported
  · intro holds
    have only := throughout_iff_cut.mp holds [.startup, .bootstrap, .clock ()]
      (.event forgedReady) [] rfl
    exact CarrierEventType.noConfusion ((onlyReady_iff idleHost _ _).mp only forgedReady rfl mentions)

end Activities

end LeanAntenna

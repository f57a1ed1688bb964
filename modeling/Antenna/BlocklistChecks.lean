import Antenna.LineStorage
import Antenna.Library.TurtleQuoting
import Antenna.Library.Utf8

/-!
Signed blocklists: what is read out of a verified payload, and the statements that the router stores
for it or for its refusal. The base64 and Ed25519 libraries are parameters.
-/

namespace LeanAntenna

open Text Turtle Rdf

/-- The calls into the libraries: `STANDARD.decode`, `VerifyingKey::from_bytes`, `verify_strict`. -/
structure SignatureCrates where
  decode : Text → Option (List UInt8)
  validKey : List UInt8 → Bool
  verifyStrict : List UInt8 → List UInt8 → List UInt8 → Bool

/-- `BLOCKLIST_PUBKEY` -/
def blocklistPubkey : List UInt8 :=
  [0xe7, 0x13, 0x5a, 0xd6, 0x39, 0x8a, 0xdb, 0x9c, 0x0a, 0xcd, 0x80, 0xb1, 0xf8, 0xf9, 0x61, 0xd0,
    0x64, 0xcb, 0xe1, 0xbd, 0x94, 0x33, 0x3d, 0x32, 0xc4, 0xd3, 0xcb, 0x0c, 0xaa, 0xc4, 0x22, 0x06]

def parseEntries (text : Text) : List Text :=
  ((lines text).map trim).filter fun line => line ≠ [] ∧ line.head? ≠ some '#'

def verifySignedBlocklist (crates : SignatureCrates) (pubkey : List UInt8) (payloadB64 sigB64 : Text) :
    Except Text (List Text) :=
  match crates.decode (trim payloadB64) with
  | none => .error "blocklist payload is not valid base64".toList
  | some payload =>
      match crates.decode (trim sigB64) with
      | none => .error "blocklist signature is not valid base64".toList
      | some signature =>
          if signature.length ≠ 64 then .error "blocklist signature must be 64 bytes".toList
          else if crates.validKey pubkey = false then
            .error "pinned blocklist key is invalid".toList
          else if crates.verifyStrict pubkey payload signature = false then
            .error "blocklist signature does not verify".toList
          else
            match Utf8.decode payload with
            | none => .error "blocklist payload is not UTF-8".toList
            | some text => .ok (parseEntries text)

/-- The lines between the newlines, trimmed, without the blank ones and the comments. -/
def visibleLines (text : Text) : List Text :=
  ((text.splitOn '\n').map trim).filter fun line => line ≠ [] ∧ line.head? ≠ some '#'

theorem parseEntries_eq (text : Text) : parseEntries text = visibleLines text := by
  have comments : ∀ pieces : List Text,
      pieces.filter (fun line => line ≠ [] ∧ line.head? ≠ some '#') =
        (pieces.filter (· ≠ [])).filter (·.head? ≠ some '#') := by
    intro pieces
    rw [List.filter_filter]
    apply List.filter_congr
    intro line _
    simp [Bool.and_comm]
  rw [parseEntries, visibleLines, comments, comments, lines_trimmed]

theorem newline_not_mem_entry {text entry : Text} (listed : entry ∈ visibleLines text) :
    '\n' ∉ entry := by
  obtain ⟨piece, split, rfl⟩ := List.mem_map.mp (List.mem_filter.mp listed).1
  intro member
  exact newline_not_mem_piece text piece split
    ((trimStart_suffix piece).subset ((trimEnd_initial _).subset member))

section Notices

/-- A line of the router's own about a blocklist: an instance of a class with one text. -/
def notice (className property content : Text) : Text :=
  quoting (.prefixed "antenna".toList className) (.prefixed "antenna".toList property) content

def noticeStatement (className property value : Text) : Statement where
  subject := .anonymous 0
  facts := [(rdfType, .iri (antennaNs ++ className)), (antennaNs ++ property, .literal value .string)]

def applyName : Text := "BlocklistApply".toList

def rejectedName : Text := "BlocklistRejected".toList

/-- The line that applies an entry. -/
def applyLine (uri : Text) : Text := notice applyName "contactUri".toList (World.withoutQuotes uri)

def rejectedLine (reason : Text) : Text := notice rejectedName "reason".toList (World.withoutQuotes reason)

theorem handleSubscribeBlocklist_eq {Store Carrier : Type} (host : Host Store Carrier)
    {line payload sig : Text} (given : extractProperty line "antenna:blocklistPayload".toList = some payload)
    (signed : extractProperty line "antenna:blocklistSig".toList = some sig)
    (world : World Store Carrier) :
    world.handleSubscribeBlocklist host line =
      match host.verifySignedBlocklist payload sig with
      | .ok entries => entries.foldl (fun world uri => world.insertWithDag host (applyLine uri)) world
      | .error reason => world.insertWithDag host (rejectedLine reason) := by
  unfold World.handleSubscribeBlocklist
  rw [given, signed]
  have applied : ∀ uri, applyLine uri =
      "[] a antenna:BlocklistApply ; antenna:contactUri \"".toList ++ World.withoutQuotes uri ++ "\" .".toList := by
    intro uri
    have front : "[] a antenna:BlocklistApply ; antenna:contactUri \"".toList =
        "[] a ".toList ++ (Name.prefixed "antenna".toList applyName).text ++ " ; ".toList ++
          (Name.prefixed "antenna".toList "contactUri".toList).text ++ " \"".toList := by decide
    rw [front]
    rfl
  have rejected : ∀ reason, rejectedLine reason =
      "[] a antenna:BlocklistRejected ; antenna:reason \"".toList ++ World.withoutQuotes reason ++
        "\" .".toList := by
    intro reason
    have front : "[] a antenna:BlocklistRejected ; antenna:reason \"".toList =
        "[] a ".toList ++ (Name.prefixed "antenna".toList rejectedName).text ++ " ; ".toList ++
          (Name.prefixed "antenna".toList "reason".toList).text ++ " \"".toList := by decide
    rw [front]
    rfl
  dsimp only
  cases host.verifySignedBlocklist payload sig with
  | ok entries => simp only [applied]
  | error reason => simp only [rejected]

/-- A notice whose text needs no escape is read as its statement. -/
theorem read_notice {className property content : Text}
    (named : ∀ name ∈ [className, property], startsLocal name = true ∧ ∀ c ∈ name, isNameChar c = true)
    (plain : ∀ c ∈ content, c ∉ ['"', '\\', '\n', '\r']) :
    Turtle.read storePrefixes (notice className property content) =
      some (noticeStatement className property content) := by
  have known : storePrefixes "antenna".toList = some antennaNs := by decide
  have label : ∀ c ∈ "antenna".toList, isNameChar c = true := by decide
  have unlike : "antenna".toList ≠ ['_'] := by decide
  have readable : ∀ name ∈ [className, property], (Name.prefixed "antenna".toList name).Readable ∧
      (Name.prefixed "antenna".toList name).iri storePrefixes = some (antennaNs ++ name) := by
    intro name member
    obtain ⟨starts, parts⟩ := named name member
    exact ⟨prefixed_readable label parts unlike, prefixed_iri known starts parts⟩
  obtain ⟨classReadable, classIri⟩ := readable className (by simp)
  obtain ⟨propertyReadable, propertyIri⟩ := readable property (by simp)
  exact read_plain classReadable propertyReadable classIri propertyIri plain

theorem withoutQuotes_plain {text : Text} (oneLine : ∀ c ∈ text, c ∉ ['\n', '\r']) :
    ∀ c ∈ World.withoutQuotes text, c ∉ ['"', '\\', '\n', '\r'] := by
  intro c member listed
  obtain ⟨inside, kept⟩ := List.mem_filter.mp member
  have unbroken := oneLine c inside
  simp only [List.mem_cons, List.not_mem_nil, or_false, not_or] at listed unbroken
  simp only [ne_eq, Bool.and_eq_true, decide_eq_true_eq] at kept
  tauto

theorem read_applyLine {uri : Text} (oneLine : ∀ c ∈ uri, c ∉ ['\n', '\r']) :
    Turtle.read storePrefixes (applyLine uri) =
      some (noticeStatement applyName "contactUri".toList (World.withoutQuotes uri)) :=
  read_notice (by decide) (withoutQuotes_plain oneLine)

theorem read_rejectedLine {reason : Text} (oneLine : ∀ c ∈ reason, c ∉ ['\n', '\r']) :
    Turtle.read storePrefixes (rejectedLine reason) =
      some (noticeStatement rejectedName "reason".toList (World.withoutQuotes reason)) :=
  read_notice (by decide) (withoutQuotes_plain oneLine)

/-- The triples of a notice, about a blank node. -/
def noticeTriples (className property value : Text) : Graph :=
  [⟨.blank "a0".toList, rdfType, .resource (.iri (antennaNs ++ className))⟩,
    ⟨.blank "a0".toList, antennaNs ++ property, .literal value (Turtle.xsd "string") none⟩]

theorem statementTriples_notice (className property value : Text) :
    statementTriples (noticeStatement className property value) =
      some (noticeTriples className property value) := rfl

end Notices

section Subscribing

variable {Carrier : Type} {host : Host Graph Carrier} {crates : SignatureCrates}

/-- A line that is one statement under the store's prefixes is added with fresh blank nodes. -/
def Host.InsertsStatements (host : Host Graph Carrier) : Prop :=
  ∀ graph line statement triples, Turtle.read storePrefixes line = some statement →
    statementTriples statement = some triples →
      (host.insertTurtle graph line).2 = .ok () ∧ Loads graph triples (host.insertTurtle graph line).1

/-- The entries were applied one after another: each was stored as one application under its text
without quotes and backslashes, where it has no carriage return. -/
inductive AppliesEach (host : Host Graph Carrier) :
    World Graph Carrier → List Text → World Graph Carrier → Prop
  | nil (world) : AppliesEach host world [] world
  | stored {before middle after entry entries} :
      Turtle.read storePrefixes (applyLine entry) =
        some (noticeStatement applyName "contactUri".toList (World.withoutQuotes entry)) →
      StoredAs before middle (applyLine entry)
        (noticeTriples applyName "contactUri".toList (World.withoutQuotes entry)) →
      AppliesEach host middle entries after → AppliesEach host before (entry :: entries) after
  | broken {before after entry entries} : '\r' ∈ entry →
      AppliesEach host (before.insertWithDag host (applyLine entry)) entries after →
      AppliesEach host before (entry :: entries) after

theorem insertWithDag_statement (inserts : host.InsertsStatements) {line : Text}
    {statement : Statement} {triples : Graph} (reads : Turtle.read storePrefixes line = some statement)
    (means : statementTriples statement = some triples) (world : World Graph Carrier) :
    StoredAs world (world.insertWithDag host line) line triples := by
  obtain ⟨accepted, loads⟩ := inserts world.store line statement triples reads means
  rw [insertWithDag_cases]
  exact ⟨by rw [accepted], loads⟩

theorem appliesEach (inserts : host.InsertsStatements) {entries : List Text}
    (unbroken : ∀ entry ∈ entries, '\n' ∉ entry) (world : World Graph Carrier) :
    AppliesEach host world entries
      (entries.foldl (fun world entry => world.insertWithDag host (applyLine entry)) world) := by
  induction entries generalizing world with
  | nil => exact .nil world
  | cons entry entries ih =>
      have rest := ih (fun other member => unbroken other (List.mem_cons_of_mem _ member))
        (world.insertWithDag host (applyLine entry))
      by_cases returns : '\r' ∈ entry
      · exact .broken returns rest
      · have oneLine : ∀ c ∈ entry, c ∉ ['\n', '\r'] := by
          intro c inside listed
          simp only [List.mem_cons, List.not_mem_nil, or_false] at listed
          rcases listed with rfl | rfl
          · exact unbroken entry List.mem_cons_self inside
          · exact returns inside
        have reads := read_applyLine oneLine
        exact .stored reads
          (insertWithDag_statement inserts reads (statementTriples_notice _ _ _) world) rest

/-- Only a payload that decodes, is signed and is UTF-8 has entries, and they are its lines. -/
theorem verified_entries {pubkey : List UInt8} {payload sig : Text} {entries : List Text}
    (verified : verifySignedBlocklist crates pubkey payload sig = .ok entries) :
    ∃ bytes signature text, crates.decode (trim payload) = some bytes ∧
      crates.decode (trim sig) = some signature ∧ signature.length = 64 ∧
      crates.verifyStrict pubkey bytes signature = true ∧ Utf8.decode bytes = some text ∧
      entries = visibleLines text := by
  unfold verifySignedBlocklist at verified
  split at verified
  · cases verified
  · rename_i bytes decoded
    split at verified
    · cases verified
    · rename_i signature alsoDecoded
      split_ifs at verified with long key signed
      split at verified
      · cases verified
      · rename_i text utf8
        cases verified
        exact ⟨bytes, signature, text, decoded, alsoDecoded, not_not.mp long,
          by simpa using signed, utf8, parseEntries_eq text⟩

theorem rejected_oneLine {pubkey : List UInt8} {payload sig reason : Text}
    (rejected : verifySignedBlocklist crates pubkey payload sig = .error reason) :
    ∀ c ∈ reason, c ∉ ['\n', '\r'] := by
  unfold verifySignedBlocklist at rejected
  split at rejected
  · cases rejected
    decide
  · split at rejected
    · cases rejected
      decide
    · split_ifs at rejected
      · cases rejected
        decide
      · cases rejected
        decide
      · cases rejected
        decide
      · split at rejected
        · cases rejected
          decide
        · cases rejected

/-- A verified blocklist is stored as one application for each of its lines that is not blank and no
comment, under the line without quotes and backslashes; any other is stored as one refusal. -/
theorem blocklist_applied (inserts : host.InsertsStatements)
    (verifies : host.verifySignedBlocklist = verifySignedBlocklist crates blocklistPubkey)
    {line payload sig : Text}
    (given : extractProperty line "antenna:blocklistPayload".toList = some payload)
    (signed : extractProperty line "antenna:blocklistSig".toList = some sig)
    (world : World Graph Carrier) :
    (∀ entries, verifySignedBlocklist crates blocklistPubkey payload sig = .ok entries →
      (∃ bytes text, crates.decode (trim payload) = some bytes ∧ Utf8.decode bytes = some text ∧
        entries = visibleLines text) ∧
      AppliesEach host world entries (world.handleSubscribeBlocklist host line)) ∧
    ∀ reason, verifySignedBlocklist crates blocklistPubkey payload sig = .error reason →
      Turtle.read storePrefixes (rejectedLine reason) =
        some (noticeStatement rejectedName "reason".toList (World.withoutQuotes reason)) ∧
      StoredAs world (world.handleSubscribeBlocklist host line) (rejectedLine reason)
        (noticeTriples rejectedName "reason".toList (World.withoutQuotes reason)) := by
  have handled := handleSubscribeBlocklist_eq host given signed world
  rw [verifies] at handled
  constructor
  · intro entries verified
    obtain ⟨bytes, -, text, decoded, -, -, -, utf8, same⟩ := verified_entries verified
    refine ⟨⟨bytes, text, decoded, utf8, same⟩, ?_⟩
    rw [handled, verified]
    exact appliesEach inserts (fun entry member => newline_not_mem_entry (same ▸ member)) world
  · intro reason rejected
    have reads := read_rejectedLine (rejected_oneLine rejected)
    refine ⟨reads, ?_⟩
    rw [handled, rejected]
    exact insertWithDag_statement inserts reads (statementTriples_notice _ _ _) world

/-- A store that takes single statements, over libraries that decode two texts and accept what they
decode. -/
def signedHost (crates : SignatureCrates) : Host Graph Unit :=
  { constructHost [] with verifySignedBlocklist := verifySignedBlocklist crates blocklistPubkey }

theorem signedHost_inserts (crates : SignatureCrates) : (signedHost crates).InsertsStatements := by
  intro graph line statement triples reads means
  have inserted : (signedHost crates).insertTurtle graph line =
      (graph.add (triples.map (Triple.rename (freshLabel graph))), .ok ()) := by
    simp [signedHost, constructHost, reads, means]
  rw [inserted]
  exact ⟨rfl, loads_freshLabel graph triples⟩

def zeroSignature : Text := List.replicate 86 'A' ++ "==".toList

/-- The two payloads `a` and `a"b`, and a signature of zeros, in base64. -/
def sampleCrates : SignatureCrates where
  decode text :=
    [("YQ==".toList, [97]), ("YSJi".toList, [97, 34, 98]), (zeroSignature, List.replicate 64 0)].lookup
      text
  validKey _ := true
  verifyStrict _ _ _ := true

def subscribeLine (payload : Text) : Text :=
  "[] a antenna:SubscribeBlocklist ; antenna:blocklistPayload \"".toList ++ payload ++
    "\" ; antenna:blocklistSig \"".toList ++ zeroSignature ++ "\" .".toList

theorem subscribeLine_properties : ∀ payload ∈ ["YQ==".toList, "YSJi".toList],
    extractProperty (subscribeLine payload) "antenna:blocklistPayload".toList = some payload ∧
      extractProperty (subscribeLine payload) "antenna:blocklistSig".toList = some zeroSignature := by
  decide +kernel

theorem blocklist_applied_plain :
    AppliesEach (signedHost sampleCrates) emptyWorld ["a".toList]
      (emptyWorld.handleSubscribeBlocklist (signedHost sampleCrates)
        (subscribeLine "YQ==".toList)) :=
  ((blocklist_applied (signedHost_inserts sampleCrates) rfl
    (subscribeLine_properties _ (by simp)).1 (subscribeLine_properties _ (by simp)).2
    emptyWorld).1 ["a".toList] (by decide)).2

/-- An entry with a quote is applied without it. -/
theorem quoted_entry_altered :
    ¬ ∀ (crates : SignatureCrates) (host : Host Graph Unit) (line payload sig : Text)
      (entries : List Text), host.InsertsStatements →
      host.verifySignedBlocklist = verifySignedBlocklist crates blocklistPubkey →
      extractProperty line "antenna:blocklistPayload".toList = some payload →
      extractProperty line "antenna:blocklistSig".toList = some sig →
      verifySignedBlocklist crates blocklistPubkey payload sig = .ok entries →
        ∃ lines : List Text,
          (emptyWorld.handleSubscribeBlocklist host line).effects =
            lines.flatMap (fun line =>
              [.beforeInsert line, .insert line, .afterInsert line, .send line]) ∧
          List.Forall₂ (fun entry line => Turtle.read storePrefixes line =
            some (noticeStatement applyName "contactUri".toList entry)) entries lines := by
  intro every
  obtain ⟨given, signed⟩ := subscribeLine_properties "YSJi".toList (by simp)
  have verified : verifySignedBlocklist sampleCrates blocklistPubkey "YSJi".toList zeroSignature =
      .ok [['a', '"', 'b']] := by decide
  obtain ⟨lines, effects, reads⟩ := every sampleCrates (signedHost sampleCrates) _ _ _ _
    (signedHost_inserts sampleCrates) rfl given signed verified
  cases reads with
  | cons read rest =>
      cases rest
      rename_i line
      have handled := handleSubscribeBlocklist_eq (signedHost sampleCrates) given signed emptyWorld
      have returned : (signedHost sampleCrates).verifySignedBlocklist "YSJi".toList zeroSignature =
          .ok [['a', '"', 'b']] := verified
      have reads : Turtle.read storePrefixes (applyLine ['a', '"', 'b']) =
          some (noticeStatement applyName "contactUri".toList ['a', 'b']) :=
        read_applyLine (by decide)
      have stored := insertWithDag_statement (signedHost_inserts sampleCrates) reads
        (statementTriples_notice _ _ _) emptyWorld
      rw [handled, returned] at effects
      dsimp only at effects
      rw [List.foldl_cons, List.foldl_nil, stored.effects] at effects
      have same : applyLine ['a', '"', 'b'] = line := by
        have first := congrArg List.head? effects
        simpa [emptyWorld] using first
      rw [← same, reads] at read
      have values := congrArg Statement.facts (Option.some.inj read)
      simp [noticeStatement] at values

end Subscribing

end LeanAntenna

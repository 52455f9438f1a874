import ApiContract.Proofs.Specification.Declarations
/-!
# What a specification of events describes

The channels of a loaded specification are the definitions in the section
`channels` that are mappings, and its operations come from two places: the section
`operations`, and the channels themselves, under `publish` and `subscribe`.  Where two
operations have one name, `DescribesOperation` says which of them is listed: that of the
section, or else the last one of the channels (`Earlier`).

The main statement is `loadEvents_describes`.  It rests on the result of loading without
the records that are made on the way (`gives_loadEvents`), and on what a map says that is
filled in an order (`Entries.get?_ofList_iff_of_pairwise`).  The schemas are declared and
compiled apart from all of this, so no verdict depends on it (`contract_of_sameSchemas`).
-/

namespace ApiContract

namespace Specification

/-! ## Channels and operations of a document -/

/-- A section of the document has a mapping under a name. -/
def Defines (document : Json) (key name : String) (definition : Entries Json) : Prop :=
  ∃ members : Entries Json, document.get? key = some (.object members) ∧
    members.get? name = some (.object definition)

/-- What the definition under a name says of a channel. -/
structure IsChannel (name : String) (definition : Entries Json) (channel : Channel) : Prop where
  name_eq : channel.name = name
  address_eq : channel.address = textOf definition "address"
  description_eq : channel.description = textOf definition "description"
  sorted : channel.messages.Pairwise (· < ·)
  mem_messages : ∀ message, message ∈ channel.messages ↔ ∃ (messages : Entries Json) (value : Json),
    definition.get? "messages" = some (.object messages) ∧ messages.get? message = some value

/-- The document describes a channel under a name. -/
def DescribesChannel (document : Json) (name : String) (channel : Channel) : Prop :=
  ∃ definition, Defines document "channels" name definition ∧ IsChannel name definition channel

/-- A channel of the document holds an operation of this name, under an action. -/
def Holds (document : Json) (channel action name : String) : Prop :=
  (action = "publish" ∨ action = "subscribe") ∧ ∃ definition operation : Entries Json,
    Defines document "channels" channel definition ∧
      definition.get? action = some (.object operation) ∧
      name = (textOf operation "operationId").getD (action ++ " " ++ channel)

/-- The order of operations within channels: channels by their names, and in one channel
`publish` before `subscribe`. -/
def Earlier (channel action channel' action' : String) : Prop :=
  channel < channel' ∨ channel = channel' ∧ action = "publish" ∧ action' = "subscribe"

/-- The operation that is listed under a name. -/
inductive DescribesOperation (document : Json) (name : String) : Operation → Prop
  | own {definition : Entries Json} (h : Defines document "operations" name definition) :
    DescribesOperation document name
      ⟨name, textOf definition "action", referenceTarget (definition.get? "channel")⟩
  | within {channel action : String} (h : Holds document channel action name)
    (hown : ∀ definition, ¬ Defines document "operations" name definition)
    (hlast : ∀ channel' action', Holds document channel' action' name →
      channel' = channel ∧ action' = action ∨ Earlier channel' action' channel action) :
    DescribesOperation document name ⟨name, some action, some channel⟩

/-! ## Loading without records -/

/-- The definitions of a section that are mappings. -/
def mappings (members : Entries Json) : Entries (Entries Json) :=
  members.filterMap fun member => member.2.members?.map (member.1, ·)

/-- The records of the definitions that are skipped change nothing about the others. -/
theorem run_definitions (kind : String) (members : Entries Json) (log : Log) :
    (StateT.run (definitions kind members) log).1 = mappings members := by
  unfold definitions mappings
  induction members generalizing log with
  | nil => rfl
  | cons member members ih =>
    obtain ⟨name, value⟩ := member
    rw [List.filterMapM_cons, List.filterMap_cons, StateT.run_bind]
    cases value with
    | object definition => exact congrArg ((name, definition) :: ·) (ih _)
    | _ => exact ih _

/-- A section of a document, as an outcome of loading. -/
def sectionOf (document : Json) (path key : String) : Except ContractFault (Entries Json) :=
  match section? document key with
  | some members => .ok members
  | none => .error (.load (.malformed path ("'" ++ key ++ "' must be a mapping")))

/-- The operations within channels, in the order in which they are read. -/
def operationsOf (channels : Entries (Entries Json)) : List Operation :=
  channels.flatMap fun channel => operationsWithin channel.1 channel.2

/-- The specification that the sections of a document describe. -/
def describe (path : String) (document : Json) (channels operations : Entries Json)
    (contract : Contract) : Specification where
  dialect := .asyncapi
  path := path
  header := .ofDocument document .asyncapi
  channels := (mappings channels).map fun channel => (channel.1, channelOf channel.1 channel.2)
  operations := operationMap (operationsOf (mappings channels) ++
    (mappings operations).map fun operation => operationOf operation.1 operation.2)
  contract := contract

/-- The contract of the schemas in a document. -/
def contractOf (path : String) (engine : Engine) (schemas : Json) :
    Except ContractFault Contract := do
  let registry ← filled (.empty .event) (sectionItems path schemas)
  (registry.compile engine).mapError .resolution

/-- The specification of events in a document. -/
def specificationOfEvents (files : FileTree) (path : String) (engine : Engine) :
    Except ContractFault Specification := do
  let document ← (readDocument files path).mapError .load
  let channels ← sectionOf document path "channels"
  let operations ← sectionOf document path "operations"
  let contract ← contractOf path engine (inlineSchemas document)
  return describe path document channels operations contract

variable {files : FileTree} {path : String} {engine : Engine} {document : Json}

theorem gives_loadSection (document : Json) (path key : String) :
    (loadSection document path key).Gives (sectionOf document path key) := by
  unfold loadSection sectionOf
  cases section? document key with
  | some members => exact Loading.Gives.pure members
  | none => exact Loading.Gives.throw _

theorem gives_loadEvents (files : FileTree) (path : String) (engine : Engine) :
    (loadEvents files path engine).Gives (specificationOfEvents files path engine) := by
  unfold loadEvents specificationOfEvents
  refine (gives_loadDocument files path).bind fun document _ => ?_
  refine (gives_loadSection document path "channels").bind fun channels _ => ?_
  refine Loading.Gives.bind_logged (run_definitions "channel" channels) ?_
  refine (gives_loadSection document path "operations").bind fun operations _ => ?_
  refine Loading.Gives.bind_logged (run_definitions "operation" operations) ?_
  have hlast (contract : Contract) : Loading.Gives
      (do
        Logged.add .info "loaded AsyncAPI contract"
          [("spec", path), ("schema_count", toString contract.size),
            ("channel_count", toString (mappings channels).length)]
        return describe path document channels operations contract)
      (pure (describe path document channels operations contract)) :=
    Loading.Gives.record (Loading.Gives.pure _)
  have hcompiled (registry : Registry) := (gives_compile registry engine).bind fun contract _ =>
    hlast contract
  -- Without schemas nothing is declared, and an empty registry is compiled.
  rw [contractOf, inlineSchemas_eq, bind_assoc]
  cases hschemas : schemaSection? document with
  | none =>
    exact Loading.Gives.record ((Loading.Gives.pure _).bind_ok (hcompiled (.empty .event)))
  | some schemas =>
    obtain ⟨count, hdeclared⟩ :=
      gives_declare (.empty .event) (isNull_of_schemaSection? hschemas) path
    show Loading.Gives _ (filled (.empty .event) (sectionItems path schemas) >>= _)
    cases hfilled : filled (.empty .event) (sectionItems path schemas) with
    | error fault =>
      rw [hfilled] at hdeclared
      exact hdeclared.bind_error _
    | ok registry =>
      rw [hfilled] at hdeclared
      exact hdeclared.bind_ok ((Loading.Gives.pure registry).bind_ok (hcompiled registry))

/-- A document is loaded if it can be read, its sections are mappings and its schemas
compile. -/
theorem gives_loadEvents_ok_iff {specification : Specification} :
    (loadEvents files path engine).Gives (.ok specification) ↔
      ∃ document channels operations contract, readDocument files path = .ok document ∧
        (section? document "channels" = some channels) ∧
        (section? document "operations" = some operations) ∧
        contractOf path engine (inlineSchemas document) = .ok contract ∧
        specification = describe path document channels operations contract := by
  have hsection {document : Json} {key : String} {members : Entries Json} :
      sectionOf document path key = .ok members ↔ section? document key = some members := by
    unfold sectionOf
    cases section? document key <;> simp
  rw [(gives_loadEvents files path engine).iff, specificationOfEvents]
  simp only [bind_eq_ok, mapError_eq_ok, hsection, pure_eq_ok]
  constructor
  · rintro ⟨document, hread, channels, hchannels, operations, hoperations, contract, hcontract, heq⟩
    exact ⟨document, channels, operations, contract, hread, hchannels, hoperations, hcontract,
      heq.symm⟩
  · rintro ⟨document, channels, operations, contract, hread, hchannels, hoperations, hcontract, heq⟩
    exact ⟨document, hread, channels, hchannels, operations, hoperations, contract, hcontract,
      heq.symm⟩

/-! ## Definitions -/

variable {key name : String} {members : Entries Json}

theorem ordered_of_section? (hdocument : document.Ordered)
    (hsection : section? document key = some members) : members.Ordered := by
  unfold section? at hsection
  split at hsection
  · cases hsection
    exact Entries.ordered_nil
  · cases hsection
    exact Entries.ordered_nil
  · next found hfound =>
    cases hsection
    exact (Json.ordered_object.1 (hdocument.of_get? hfound)).1
  · cases hsection

theorem get?_mappings (hordered : members.Ordered) {definition : Entries Json} :
    (mappings members).get? name = some definition ↔
      members.get? name = some (.object definition) := by
  rw [mappings, Entries.get?_filterMap_snd hordered, Option.bind_eq_some_iff]
  constructor
  · rintro ⟨value, hvalue, hdefinition⟩
    cases value with
    | object members =>
      cases hdefinition
      exact hvalue
    | _ => cases hdefinition
  · intro h
    exact ⟨_, h, rfl⟩

/-- What a section defines is what is kept of it. -/
theorem defines_iff (hdocument : document.Ordered)
    (hsection : section? document key = some members) {definition : Entries Json} :
    Defines document key name definition ↔ (mappings members).get? name = some definition := by
  rw [get?_mappings (ordered_of_section? hdocument hsection)]
  unfold section? at hsection
  unfold Defines
  split at hsection
  · next hnone =>
    cases hsection
    simp [hnone]
  · next hnull =>
    cases hsection
    simp [hnull]
  · next found hfound =>
    cases hsection
    simp [hfound]
  · cases hsection

/-! ## Channels -/

theorem ordered_of_defines (hdocument : document.Ordered) {definition : Entries Json}
    (h : Defines document key name definition) : (Json.object definition).Ordered := by
  obtain ⟨members, hmembers, hdefinition⟩ := h
  exact (hdocument.of_get? hmembers).of_get? hdefinition

/-- The messages are the keys of a mapping, and none if there is no mapping. -/
theorem channelOf_messages (name : String) (definition : Entries Json) :
    (∃ messages : Entries Json, definition.get? "messages" = some (.object messages) ∧
      (channelOf name definition).messages = messages.keys) ∨
    (∀ messages : Entries Json, definition.get? "messages" ≠ some (.object messages)) ∧
      (channelOf name definition).messages = [] := by
  unfold channelOf
  cases definition.get? "messages" with
  | none => exact .inr ⟨nofun, rfl⟩
  | some value =>
    cases value with
    | object messages => exact .inl ⟨messages, rfl, rfl⟩
    | _ => exact .inr ⟨nofun, rfl⟩

theorem isChannel_channelOf {definition : Entries Json}
    (hdefinition : (Json.object definition).Ordered) :
    IsChannel name definition (channelOf name definition) := by
  refine ⟨rfl, rfl, rfl, ?_, ?_⟩
  · rcases channelOf_messages name definition with ⟨messages, hmessages, hkeys⟩ | ⟨-, hnone⟩
    · have hordered : (Json.object messages).Ordered := hdefinition.of_get? hmessages
      rw [hkeys, Entries.keys, List.pairwise_map]
      exact (Json.ordered_object.1 hordered).1
    · rw [hnone]
      exact .nil
  · intro message
    rcases channelOf_messages name definition with ⟨messages, hmessages, hkeys⟩ | ⟨hother, hnone⟩
    · rw [hkeys, Entries.mem_keys_iff, hmessages]
      constructor
      · rintro ⟨value, hvalue⟩
        exact ⟨messages, value, rfl, hvalue⟩
      · rintro ⟨messages', value, heq, hvalue⟩
        cases heq
        exact ⟨value, hvalue⟩
    · rw [hnone]
      constructor
      · intro hmem
        cases hmem
      · rintro ⟨messages, value, hmessages, -⟩
        exact absurd hmessages (hother messages)

/-- What a definition says of a channel determines the channel. -/
theorem IsChannel.unique {definition : Entries Json} {channel channel' : Channel}
    (h : IsChannel name definition channel) (h' : IsChannel name definition channel') :
    channel = channel' := by
  have hmessages : channel.messages = channel'.messages := by
    refine h.sorted.eq_of_mem_iff h'.sorted ?_
    intro message
    rw [h.mem_messages, h'.mem_messages]
  obtain ⟨cname, caddress, cdescription, cmessages⟩ := channel
  obtain ⟨cname', caddress', cdescription', cmessages'⟩ := channel'
  obtain ⟨rfl, rfl, rfl, -, -⟩ := h
  obtain ⟨rfl, rfl, rfl, -, -⟩ := h'
  cases hmessages
  rfl

variable {channels operations : Entries Json} {contract : Contract}

/-- The channels that are listed are those that the document describes. -/
theorem get?_channels (hdocument : document.Ordered)
    (hchannels : section? document "channels" = some channels) {channel : Channel} :
    (describe path document channels operations contract).channels.get? name = some channel ↔
      DescribesChannel document name channel := by
  show Entries.get? ((mappings channels).map _) name = some channel ↔ _
  rw [Entries.get?_map_snd, Option.map_eq_some_iff]
  unfold DescribesChannel
  refine exists_congr fun definition => ?_
  rw [← defines_iff hdocument hchannels]
  refine and_congr_right fun hdefines => ?_
  have hself : IsChannel name definition (channelOf name definition) :=
    isChannel_channelOf (ordered_of_defines hdocument hdefines)
  constructor
  · rintro rfl
    exact hself
  · exact hself.unique

theorem mem_channels_keys (hdocument : document.Ordered)
    (hchannels : section? document "channels" = some channels) (name : String) :
    name ∈ (describe path document channels operations contract).channels.keys ↔
      ∃ definition, Defines document "channels" name definition := by
  rw [Entries.mem_keys_iff]
  simp only [get?_channels hdocument hchannels]
  constructor
  · rintro ⟨channel, definition, hdefines, -⟩
    exact ⟨definition, hdefines⟩
  · rintro ⟨definition, hdefines⟩
    exact ⟨_, definition, hdefines, isChannel_channelOf (ordered_of_defines hdocument hdefines)⟩

theorem ordered_mappings (hordered : members.Ordered) : (mappings members).Ordered :=
  hordered.filterMap_snd _

/-! ## Operations within channels -/

theorem Earlier.asymm {channel action channel' action' : String}
    (h : Earlier channel action channel' action') : ¬ Earlier channel' action' channel action := by
  rintro (hlt' | ⟨rfl, haction, -⟩)
  · rcases h with hlt | ⟨rfl, -, -⟩
    · exact lt_asymm hlt hlt'
    · exact lt_irrefl _ hlt'
  · rcases h with hlt | ⟨-, -, haction'⟩
    · exact lt_irrefl _ hlt
    · rw [haction] at haction'
      exact absurd haction' (by decide)

/-- The order of the operations that stand within channels. -/
def Precedes (operation operation' : Operation) : Prop :=
  ∃ channel action channel' action', operation.channel = some channel ∧
    operation.action = some action ∧ operation'.channel = some channel' ∧
    operation'.action = some action' ∧ Earlier channel action channel' action'

theorem Precedes.asymm {operation operation' : Operation} (h : Precedes operation operation') :
    ¬ Precedes operation' operation := by
  obtain ⟨channel, action, channel', action', hchannel, haction, hchannel', haction', h⟩ := h
  rintro ⟨d', a', d, a, hd', ha', hd, ha, hlater⟩
  cases hchannel.symm.trans hd
  cases haction.symm.trans ha
  cases hchannel'.symm.trans hd'
  cases haction'.symm.trans ha'
  exact h.asymm hlater

/-- The operation of a channel for an action, if it has one. -/
def operationAt (channel : String) (definition : Entries Json) (action : String) :
    Option Operation :=
  ((definition.get? action).bind (·.members?)).map fun operation =>
    ⟨(textOf operation "operationId").getD (action ++ " " ++ channel), some action, some channel⟩

theorem operationsWithin_eq (channel : String) (definition : Entries Json) :
    operationsWithin channel definition =
      ["publish", "subscribe"].filterMap (operationAt channel definition) := by
  unfold operationsWithin
  congr 1
  funext action
  unfold operationAt
  cases definition.get? action with
  | none => rfl
  | some value => cases value <;> rfl

theorem operationAt_eq_some {channel action : String} {definition : Entries Json}
    {operation : Operation} : operationAt channel definition action = some operation ↔
      ∃ members : Entries Json, definition.get? action = some (.object members) ∧
        operation = ⟨(textOf members "operationId").getD (action ++ " " ++ channel), some action,
          some channel⟩ := by
  unfold operationAt
  cases definition.get? action with
  | none => simp
  | some value => cases value <;> simp [Json.members?, eq_comm]

theorem mem_operationsWithin {channel : String} {definition : Entries Json}
    {operation : Operation} : operation ∈ operationsWithin channel definition ↔
      ∃ action, (action = "publish" ∨ action = "subscribe") ∧
        operationAt channel definition action = some operation := by
  rw [operationsWithin_eq, List.mem_filterMap]
  simp only [List.mem_cons, List.not_mem_nil, or_false]

/-- What stands within the channels of a document is what they hold. -/
theorem mem_operationsOf (hdocument : document.Ordered)
    (hchannels : section? document "channels" = some channels) {operation : Operation} :
    operation ∈ operationsOf (mappings channels) ↔ ∃ channel action name,
      Holds document channel action name ∧ operation = ⟨name, some action, some channel⟩ := by
  have hordered := ordered_mappings (ordered_of_section? hdocument hchannels)
  rw [operationsOf, List.mem_flatMap]
  constructor
  · rintro ⟨⟨channel, definition⟩, hmem, hwithin⟩
    obtain ⟨action, haction, hat⟩ := mem_operationsWithin.1 hwithin
    obtain ⟨members, hmembers, rfl⟩ := operationAt_eq_some.1 hat
    have hdefines := (defines_iff hdocument hchannels).2
      ((Entries.get?_eq_some_iff hordered).2 hmem)
    exact ⟨channel, action, _, ⟨haction, definition, members, hdefines, hmembers, rfl⟩, rfl⟩
  · rintro ⟨channel, action, _, ⟨haction, definition, members, hdefines, hmembers, rfl⟩, rfl⟩
    refine ⟨(channel, definition), ?_, ?_⟩
    · exact Entries.mem_of_get?_eq_some ((defines_iff hdocument hchannels).1 hdefines)
    · exact mem_operationsWithin.2
        ⟨action, haction, operationAt_eq_some.2 ⟨members, hmembers, rfl⟩⟩

/-- Operations within channels are read in their order. -/
theorem pairwise_operationsOf {channels : Entries (Entries Json)} (hordered : channels.Ordered) :
    (operationsOf channels).Pairwise Precedes := by
  have hat {channel action : String} {definition : Entries Json} {operation : Operation}
      (h : operationAt channel definition action = some operation) :
      operation.channel = some channel ∧ operation.action = some action := by
    obtain ⟨members, -, rfl⟩ := operationAt_eq_some.1 h
    exact ⟨rfl, rfl⟩
  rw [operationsOf, List.pairwise_flatMap]
  constructor
  · rintro ⟨channel, definition⟩ -
    rw [operationsWithin_eq, List.pairwise_filterMap]
    refine List.pairwise_pair.2 ?_
    intro operation hoperation operation' hoperation'
    obtain ⟨hchannel, haction⟩ := hat hoperation
    obtain ⟨hchannel', haction'⟩ := hat hoperation'
    exact ⟨channel, _, channel, _, hchannel, haction, hchannel', haction', .inr ⟨rfl, rfl, rfl⟩⟩
  · refine hordered.imp ?_
    intro entry entry' hlt operation hoperation operation' hoperation'
    obtain ⟨action, -, hoperation⟩ := mem_operationsWithin.1 hoperation
    obtain ⟨action', -, hoperation'⟩ := mem_operationsWithin.1 hoperation'
    obtain ⟨hchannel, haction⟩ := hat hoperation
    obtain ⟨hchannel', haction'⟩ := hat hoperation'
    exact ⟨_, action, _, action', hchannel, haction, hchannel', haction', .inl hlt⟩

/-- Of the operations of one name within channels, the last one is in the map. -/
theorem get?_operationMap_operationsOf (hdocument : document.Ordered)
    (hchannels : section? document "channels" = some channels) {operation : Operation} :
    (operationMap (operationsOf (mappings channels))).get? name = some operation ↔
      ∃ channel action, Holds document channel action name ∧
        operation = ⟨name, some action, some channel⟩ ∧
        ∀ channel' action', Holds document channel' action' name →
          channel' = channel ∧ action' = action ∨ Earlier channel' action' channel action := by
  have hordered := ordered_mappings (ordered_of_section? hdocument hchannels)
  have hread : ((operationsOf (mappings channels)).map fun operation =>
      (operation.name, operation)).Pairwise fun entry entry' => Precedes entry.2 entry'.2 := by
    rw [List.pairwise_map]
    exact pairwise_operationsOf hordered
  have hmem (operation : Operation) : (name, operation) ∈
      (operationsOf (mappings channels)).map (fun operation => (operation.name, operation)) ↔
        ∃ channel action, Holds document channel action name ∧
          operation = ⟨name, some action, some channel⟩ := by
    rw [List.mem_map]
    constructor
    · rintro ⟨other, hother, heq⟩
      cases heq
      obtain ⟨channel, action, _, hholds, rfl⟩ := (mem_operationsOf hdocument hchannels).1 hother
      exact ⟨channel, action, hholds, rfl⟩
    · rintro ⟨channel, action, hholds, rfl⟩
      exact ⟨_, (mem_operationsOf hdocument hchannels).2 ⟨channel, action, name, hholds, rfl⟩, rfl⟩
  rw [operationMap, Entries.get?_ofList_iff_of_pairwise hread fun _ _ => Precedes.asymm, hmem]
  simp only [hmem]
  constructor
  · rintro ⟨⟨channel, action, hholds, rfl⟩, hlast⟩
    refine ⟨channel, action, hholds, rfl, ?_⟩
    intro channel' action' hholds'
    rcases hlast _ ⟨channel', action', hholds', rfl⟩ with heq | ⟨_, _, _, _, hc', ha', hc, ha, h⟩
    · cases heq
      exact .inl ⟨rfl, rfl⟩
    · cases hc'
      cases ha'
      cases hc
      cases ha
      exact .inr h
  · rintro ⟨channel, action, hholds, rfl, hlast⟩
    refine ⟨⟨channel, action, hholds, rfl⟩, ?_⟩
    rintro _ ⟨channel', action', hholds', rfl⟩
    rcases hlast channel' action' hholds' with ⟨rfl, rfl⟩ | hearlier
    · exact .inl rfl
    · exact .inr ⟨channel', action', channel, action, rfl, rfl, rfl, rfl, hearlier⟩

/-! ## Operations -/

/-- The operations that are listed are those that the document describes. -/
theorem get?_operations (hdocument : document.Ordered)
    (hchannels : section? document "channels" = some channels)
    (hoperations : section? document "operations" = some operations) {operation : Operation} :
    (describe path document channels operations contract).operations.get? name = some operation ↔
      DescribesOperation document name operation := by
  have hownOrdered := ordered_mappings (ordered_of_section? hdocument hoperations)
  have hown : (operationMap ((mappings operations).map fun operation =>
      operationOf operation.1 operation.2)).get? name =
        ((mappings operations).get? name).map (operationOf name) := by
    rw [operationMap, List.map_map]
    show Entries.get? (Entries.ofList ((mappings operations).map fun operation =>
      (operation.1, operationOf operation.1 operation.2))) name = _
    rw [(hownOrdered.map_snd _).ofList_eq, Entries.get?_map_snd]
  -- The section is read after the channels, so what it has under the name counts first.
  show Entries.get? (operationMap _) name = _ ↔ _
  rw [operationMap, List.map_append, Entries.get?_ofList_append, ← operationMap, ← operationMap,
    hown]
  cases hdefinition : (mappings operations).get? name with
  | some definition =>
    have hdefines := (defines_iff hdocument hoperations).2 hdefinition
    rw [Option.map_some, Option.some_or, Option.some_inj]
    constructor
    · rintro rfl
      exact .own hdefines
    · intro hdescribes
      cases hdescribes with
      | own hother =>
        rw [defines_iff hdocument hoperations, hdefinition] at hother
        cases hother
        rfl
      | within _ hnone _ => exact absurd hdefines (hnone definition)
  | none =>
    have hnone (definition : Entries Json) : ¬ Defines document "operations" name definition := by
      rw [defines_iff hdocument hoperations, hdefinition]
      exact nofun
    rw [Option.map_none, Option.none_or, get?_operationMap_operationsOf hdocument hchannels]
    constructor
    · rintro ⟨channel, action, hholds, rfl, hlast⟩
      exact .within hholds hnone hlast
    · intro hdescribes
      cases hdescribes with
      | own hdefines => exact absurd hdefines (hnone _)
      | within hholds _ hlast => exact ⟨_, _, hholds, rfl, hlast⟩

/-- Every name that an operation has is in the map. -/
theorem mem_operations_keys (hdocument : document.Ordered)
    (hchannels : section? document "channels" = some channels)
    (hoperations : section? document "operations" = some operations) :
    name ∈ (describe path document channels operations contract).operations.keys ↔
      (∃ definition, Defines document "operations" name definition) ∨
        ∃ channel action, Holds document channel action name := by
  have hownOrdered := ordered_mappings (ordered_of_section? hdocument hoperations)
  show name ∈ (Entries.ofList _).keys ↔ _
  rw [Entries.mem_keys_ofList]
  simp only [List.mem_map, List.mem_append, Prod.mk.injEq, mem_operationsOf hdocument hchannels]
  constructor
  · rintro ⟨_, operation, hread, rfl, -⟩
    rcases hread with ⟨channel, action, other, hholds, rfl⟩ | ⟨⟨own, definition⟩, hmem, rfl⟩
    · exact .inr ⟨channel, action, hholds⟩
    · exact .inl ⟨definition, (defines_iff hdocument hoperations).2
        ((Entries.get?_eq_some_iff hownOrdered).2 hmem)⟩
  · rintro (⟨definition, hdefines⟩ | ⟨channel, action, hholds⟩)
    · have hmem := Entries.mem_of_get?_eq_some ((defines_iff hdocument hoperations).1 hdefines)
      exact ⟨_, _, .inr ⟨_, hmem, rfl⟩, rfl, rfl⟩
    · exact ⟨_, _, .inl ⟨channel, action, name, hholds, rfl⟩, rfl, rfl⟩

/-! ## Schemas apart from channels and operations -/

/-- Documents with the same schemas come to the same contract. -/
theorem contract_of_sameSchemas {other : FileTree} {document' : Json}
    {specification : Specification} (hread : readDocument files path = .ok document)
    (hloaded : (loadEvents files path engine).Gives (.ok specification))
    (hread' : readDocument other path = .ok document')
    (hschemas : inlineSchemas document' = inlineSchemas document)
    (hsections : ∀ key ∈ ["channels", "operations"], section? document' key ≠ none) :
    ∃ specification', (loadEvents other path engine).Gives (.ok specification') ∧
      specification'.contract = specification.contract := by
  obtain ⟨_, channels, operations, contract, hsame, -, -, hcontract, rfl⟩ :=
    gives_loadEvents_ok_iff.1 hloaded
  cases hread.symm.trans hsame
  obtain ⟨channels', hchannels'⟩ := Option.ne_none_iff_exists'.1 (hsections "channels" (by simp))
  obtain ⟨operations', hoperations'⟩ :=
    Option.ne_none_iff_exists'.1 (hsections "operations" (by simp))
  refine ⟨describe path document' channels' operations' contract, ?_, rfl⟩
  exact gives_loadEvents_ok_iff.2
    ⟨document', channels', operations', contract, hread', hchannels', hoperations',
      hschemas ▸ hcontract, rfl⟩

/-! ## What is listed -/

/-- The channels and operations that are listed are those that the document describes, and
the schemas that are compiled do not depend on them. -/
theorem loadEvents_describes {specification : Specification}
    (hloaded : (loadEvents files path engine).Gives (.ok specification)) :
    ∃ document, readDocument files path = .ok document ∧
      specification.channels.Ordered ∧
      (∀ name, name ∈ specification.channels.keys ↔
        ∃ definition, Defines document "channels" name definition) ∧
      (∀ name channel, specification.channels.get? name = some channel ↔
        DescribesChannel document name channel) ∧
      specification.operations.Ordered ∧
      (∀ name, name ∈ specification.operations.keys ↔
        (∃ definition, Defines document "operations" name definition) ∨
          ∃ channel action, Holds document channel action name) ∧
      (∀ name operation, specification.operations.get? name = some operation ↔
        DescribesOperation document name operation) ∧
      (∀ name operation, specification.operations.get? name = some operation →
        operation.name = name ∧
          ((∀ definition, ¬ Defines document "operations" name definition) →
            ∃ channel ∈ specification.channels.keys, operation.channel = some channel)) ∧
      ∀ (other : FileTree) (document' : Json), readDocument other path = .ok document' →
        document'.at? ["components", "schemas"] = document.at? ["components", "schemas"] →
        (∀ key ∈ ["channels", "operations"], section? document' key ≠ none) →
        ∃ specification', (loadEvents other path engine).Gives (.ok specification') ∧
          specification'.contract = specification.contract := by
  obtain ⟨document, channels, operations, contract, hread, hchannels, hoperations, -, rfl⟩ :=
    gives_loadEvents_ok_iff.1 hloaded
  have hdocument := ordered_of_readDocument hread
  refine ⟨document, hread, ?_, mem_channels_keys hdocument hchannels, ?_,
    Entries.ordered_ofList _, ?_, ?_, ?_, ?_⟩
  · exact (ordered_mappings (ordered_of_section? hdocument hchannels)).map_snd _
  · intro name channel
    exact get?_channels hdocument hchannels
  · intro name
    exact mem_operations_keys hdocument hchannels hoperations
  · intro name operation
    exact get?_operations hdocument hchannels hoperations
  · intro name operation hlisted
    have hdescribes := (get?_operations hdocument hchannels hoperations).1 hlisted
    cases hdescribes with
    | own hdefines => exact ⟨rfl, fun hnone => absurd hdefines (hnone _)⟩
    | @within channel _ hholds _ _ =>
      obtain ⟨-, definition, _, hdefines, -⟩ := hholds
      exact ⟨rfl, fun _ =>
        ⟨channel, (mem_channels_keys hdocument hchannels channel).2 ⟨definition, hdefines⟩, rfl⟩⟩
  · intro other document' hread' hschemas hsections
    have hinline : inlineSchemas document' = inlineSchemas document :=
      congrArg (·.getD .null) hschemas
    exact contract_of_sameSchemas hread hloaded hread' hinline hsections

/-- A document of both layouts, where a section has an operation that a channel holds too. -/
def orderEvents : FileTree := ⟨[([.text "asyncapi.yaml"], .file (Utf8.encode <|
  "channels:\n  order:\n    publish: \x7boperationId: place\x7d\n    subscribe: \x7b\x7d\n" ++
    "operations:\n  subscribe order: \x7baction: send\x7d\n"))], []⟩

theorem loadEvents_orderEvents : ∃ specification document,
    (loadEvents orderEvents "asyncapi.yaml" (.asNoted true)).Gives (.ok specification) ∧
      readDocument orderEvents "asyncapi.yaml" = .ok document ∧
      specification.channels.keys = ["order"] ∧
      DescribesOperation document "place" ⟨"place", some "publish", some "order"⟩ ∧
      DescribesOperation document "subscribe order" ⟨"subscribe order", some "send", none⟩ := by
  obtain ⟨specification, hspecification, hlisted⟩ := exists_of_any
    (x := specificationOfEvents orderEvents "asyncapi.yaml" (.asNoted true))
    (p := fun specification => specification.channels.keys = ["order"] ∧
      specification.operations.get? "place" = some ⟨"place", some "publish", some "order"⟩ ∧
      specification.operations.get? "subscribe order" =
        some ⟨"subscribe order", some "send", none⟩)
    (by decide +kernel)
  obtain ⟨hkeys, hplace, hsubscribe⟩ := of_decide_eq_true hlisted
  have hloaded := (gives_loadEvents orderEvents "asyncapi.yaml" (.asNoted true)).iff.2 hspecification
  obtain ⟨document, hread, -, -, -, -, -, hoperations, -⟩ := loadEvents_describes hloaded
  exact ⟨specification, document, hloaded, hread, hkeys, (hoperations _ _).1 hplace,
    (hoperations _ _).1 hsubscribe⟩

end Specification

end ApiContract

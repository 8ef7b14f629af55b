/-
The changes that can be made to a frame under construction.

An `Edit` is one of them as a value, so a frame is described by its type
and a list of edits. Which edits make sense for a type is told by
`Edit.appliesTo`. Edits that add header fields go on with the table of
the connection's encoder (`Builder.edit` threads it through), and a
field that does not fit has changed the table all the same.
-/
import Http2.Frame.Builder
import Http2.HeaderBlock.Builder
import Http2.Settings.Record

namespace Http2.Frame

/-- A change to a frame under construction. -/
inductive Edit where
  /-- Names the stream. -/
  | streamId (id : UInt32)
  | endStream
  | endHeaders
  | acknowledge
  /-- Pads the frame, or changes its padding. -/
  | padding (octets : UInt8)
  /-- Adds data, encoded header fields or debug data, as the type has
  it. -/
  | append (octets : List UInt8)
  | priority (priority : Priority)
  /-- Encodes a header field and adds it. -/
  | field (field : Field)
  /-- Encodes header fields and adds them one by one. -/
  | fields (fields : HeaderMap)
  | promisedStreamId (id : UInt32)
  | errorCode (code : ErrorCode)
  | lastStreamId (id : UInt32)
  | windowSizeIncrement (increment : UInt32)
  /-- Fills in the payload of a PING frame. -/
  | payload (octets : List UInt8)
  /-- Fills in the payload of a PING frame as a number. -/
  | opaqueData (data : UInt64)
  /-- Adds a parameter. -/
  | setting (setting : Setting) (value : UInt32)
  /-- Adds a parameter for every limited setting of a record. -/
  | settings (settings : Settings)

/-- Whether an edit makes sense for frames of a type. -/
def Edit.appliesTo (type : FrameType) : Edit → Bool
  | streamId _ => type.isStreamScoped || type == .windowUpdate
  | endStream => type.definedFlags.contains .endStream
  | endHeaders => type.definedFlags.contains .endHeaders
  | acknowledge => type.definedFlags.contains .ack
  | padding _ => type.definedFlags.contains .padded
  | append _ =>
    [.data, .headers, .pushPromise, .continuation, .goAway].contains type
  | priority _ => [.headers, .priority].contains type
  | field _ | fields _ =>
    [.headers, .pushPromise, .continuation].contains type
  | promisedStreamId _ => type == .pushPromise
  | errorCode _ => [.rstStream, .goAway].contains type
  | lastStreamId _ => type == .goAway
  | windowSizeIncrement _ => type == .windowUpdate
  | payload _ | opaqueData _ => type == .ping
  | setting _ _ | settings _ => type == .settings

namespace Builder

/-- Marks the frame as an acknowledgement. A SETTINGS frame with
parameters is none. -/
def acknowledge (b : Builder) : Attempt Builder :=
  if b.type = .settings && b.length != 0 then
    .refuse b (.invalidArgument .ackNotEmpty)
  else .ok (b.setFlag .ack)

/-- Sets the priority fields. In a HEADERS frame they are optional: they
are put in front of the block when they are first set. -/
def setPriority (b : Builder) (priority : Priority) : Attempt Builder :=
  .guarded b priority.require <|
  if b.type = .headers && !b.has .priority then
    (b.insert b.fieldsStart priority.encode).andThen fun b =>
      .ok (b.setFlag .priority)
  else .ok (b.overwrite b.fieldsStart priority.encode)

/-- Encodes a header field and adds it. The block is continued in the
room that the padding leaves. -/
def addField (b : Builder) (table : Hpack.Table) (field : Field) :
    Attempt (Builder × Hpack.Table) :=
  let room := b.maxLimit - b.padding
  match HeaderBlock.Builder.start b.buffer b.contentEnd room with
  | .error e => .refuse (b, table) e
  | .ok block =>
    match block.field table field with
    | .error r =>
      .error ⟨r.error, { b with buffer := r.left.1.buffer }, r.left.2⟩
    | .ok (block, table) =>
      ({ b with buffer := block.buffer }.endContentAt block.limit).within
        (·, table)

/-- Encodes header fields and adds them, up to the first that does not
fit. -/
def addFields (b : Builder) (table : Hpack.Table) :
    List Field → Attempt (Builder × Hpack.Table)
  | [] => .ok (b, table)
  | f :: fs =>
    match b.addField table f with
    | .error r => .error r
    | .ok (b, table) => b.addFields table fs

/-- Sets the stream that the fields of the type start with: the promised
stream of a PUSH_PROMISE frame, the last stream of a GOAWAY frame. -/
def setNamedStream (b : Builder) (id : UInt32) : Attempt Builder :=
  .guarded b (requireStreamId id) (.ok (b.setField 0 id))

/-- Where the error code stands among the fields of the type. -/
def errorCodeOffset (b : Builder) : Nat := if b.type = .goAway then 4 else 0

/-- Sets the increment of a WINDOW_UPDATE frame, which is neither zero
nor reaches the reserved bit. -/
def setIncrement (b : Builder) (increment : UInt32) : Attempt Builder :=
  if increment = 0 || reservedBit ≤ increment.toNat then
    .refuse b (.invalidArgument .windowSizeIncrement)
  else .ok (b.setField 0 increment)

/-- Fills in the payload of a PING frame. -/
def setPayload (b : Builder) (octets : List UInt8) : Attempt Builder :=
  if octets.length = FrameType.ping.fixedLength then
    .ok (b.overwrite b.fieldsStart octets)
  else .refuse b (.invalidArgument .pingPayloadLength)

/-- Adds a parameter, unless the frame is an acknowledgement or the
value is illegal. -/
def addSetting (b : Builder) (setting : Setting) (value : UInt32) :
    Attempt Builder :=
  if b.has .ack then .refuse b (.invalidArgument .ackNotEmpty)
  else if setting.allows value then
    b.append (Parameter.announce setting value).encode
  else .refuse b (.invalidArgument .settingOutOfRange)

/-- Adds parameters, up to the first that is refused. -/
def addSettings (b : Builder) : List (Setting × UInt32) → Attempt Builder
  | [] => .ok b
  | (setting, value) :: rest =>
    (b.addSetting setting value).andThen (·.addSettings rest)

/-- Makes a change, with the encoder's table at hand. -/
def edit (b : Builder) (table : Hpack.Table) :
    Edit → Attempt (Builder × Hpack.Table)
  | .streamId id => (b.setStreamId id).within (·, table)
  | .endStream => .ok (b.setFlag .endStream, table)
  | .endHeaders => .ok (b.setFlag .endHeaders, table)
  | .acknowledge => b.acknowledge.within (·, table)
  | .padding octets => (b.setPadding octets).within (·, table)
  | .append octets => (b.append octets).within (·, table)
  | .priority priority => (b.setPriority priority).within (·, table)
  | .field field => b.addField table field
  | .fields fields => b.addFields table fields.toList
  | .promisedStreamId id => (b.setNamedStream id).within (·, table)
  | .errorCode code => .ok (b.setField b.errorCodeOffset code.code, table)
  | .lastStreamId id => (b.setNamedStream id).within (·, table)
  | .windowSizeIncrement increment =>
    (b.setIncrement increment).within (·, table)
  | .payload octets => (b.setPayload octets).within (·, table)
  | .opaqueData data =>
    .ok (b.overwrite b.fieldsStart (BigEndian.encode 8 data.toNat), table)
  | .setting setting value => (b.addSetting setting value).within (·, table)
  | .settings settings =>
    (b.addSettings settings.announced).within (·, table)

/-- Makes several changes, up to the first that is refused. -/
def editAll (b : Builder) (table : Hpack.Table) :
    List Edit → Attempt (Builder × Hpack.Table)
  | [] => .ok (b, table)
  | e :: es =>
    match b.edit table e with
    | .error r => .error r
    | .ok (b, table) => b.editAll table es

end Builder

end Http2.Frame

import KacheDB.Resp.Decoding

/-!
# Commands on the wire

A command is an array of bulk strings, so that the decoder can read what the encoder writes.  It
is the length prefixes that delimit the arguments: `encodeCommands_readable` says that reading
gives back the bytes of all arguments of all commands, whatever is in them, and that the wire
form determines them.
-/

namespace KacheDB

open Foundation

/-- The bytes of the arguments of a command. -/
def rawArgs (args : List Arg) : List Bytes :=
  args.map Arg.raw

/-- A command as the reader of a stream sees it. -/
def commandTree (args : List Arg) : ValueTree :=
  .array (args.map fun arg => .bulk arg.raw)

/-- The value that a command is read as. -/
def commandValue (args : List Arg) : RespValue :=
  .list ((rawArgs args).map .bytes)

lemma length_toReplyList (ts : List ValueTree) :
    (ValueTree.toReplyList ts).length = ts.length := by
  induction ts with
  | nil => rfl
  | cons t ts ih => rw [ValueTree.toReplyList, List.length_cons, List.length_cons, ih]

/-- The arguments on the wire. -/
lemma encodeList_bulks (args : List Arg) :
    Reply.encodeList (ValueTree.toReplyList (args.map fun arg => .bulk arg.raw)) =
      args.flatMap fun arg => encodeBulk arg.raw := by
  induction args with
  | nil => rfl
  | cons arg args ih =>
    rw [List.map_cons, ValueTree.toReplyList, Reply.encodeList, ih, List.flatMap_cons]
    rfl

/-- The wire form of a command. -/
lemma encode_commandTree (args : List Arg) :
    (commandTree args).encode = encodeCommand args := by
  rw [commandTree, ValueTree.encode, ValueTree.toReply, Reply.encode, encodeList_bulks,
    length_toReplyList, List.length_map, encodeCommand]

lemma valueList_bulks (args : List Arg) :
    ValueTree.valueList (args.map fun arg => .bulk arg.raw) = (rawArgs args).map .bytes := by
  induction args with
  | nil => rfl
  | cons arg args ih =>
    rw [List.map_cons, ValueTree.valueList, ih]
    rfl

lemma value_commandTree (args : List Arg) : (commandTree args).value = commandValue args := by
  rw [commandTree, ValueTree.value, valueList_bulks]
  rfl

/-- Commands are not nested. -/
lemma depth_commandTree_le (args : List Arg) : (commandTree args).toReply.depth ≤ 2 := by
  have hitems : ∀ args : List Arg, Reply.depthList
      (ValueTree.toReplyList (args.map fun arg => .bulk arg.raw)) ≤ 1 := by
    intro args
    induction args with
    | nil => exact Nat.zero_le 1
    | cons arg args ih =>
      rw [List.map_cons, ValueTree.toReplyList, Reply.depthList]
      exact max_le le_rfl ih
  rw [commandTree, ValueTree.toReply, Reply.depth]
  exact Nat.succ_le_succ (hitems args)

/-- The value of a command determines the bytes of its arguments. -/
lemma rawArgs_eq_of_commandValue {args args' : List Arg}
    (h : commandValue args = commandValue args') : rawArgs args = rawArgs args' := by
  have hinj : Function.Injective RespValue.bytes := fun _ _ hb => RespValue.bytes.inj hb
  exact List.map_injective_iff.mpr hinj (RespValue.list.inj h)

/-- A stream that begins with a value tree determines the value of the tree and the rest of the
stream: it is what the decoder reads and what it leaves. -/
lemma ValueTree.encode_append_inj {t t' : ValueTree} {rest rest' : Bytes}
    (h : t.encode ++ rest = t'.encode ++ rest') : t.value = t'.value ∧ rest = rest' := by
  -- a depth that the stack must allow for both
  let limit := max t.toReply.depth t'.toReply.depth
  have hne : t.encode ++ rest ≠ [] := by
    intro hnil
    exact t.toReply.encode_ne_nil (List.append_eq_nil_iff.mp hnil).1
  let feed : Feed := [.chunk ⟨t.encode ++ rest, hne⟩]
  have hok : respBuffer.Ok RespReader.init := ⟨le_rfl, by simp [RespReader.init]⟩
  have hquiet : feed.Quiet := Feed.quiet_map_chunk [⟨t.encode ++ rest, hne⟩]
  have hunread : RespReader.init.unread feed = t.encode ++ rest := by
    have hinit := RespReader.unread_init_map_chunk [⟨t.encode ++ rest, hne⟩]
    simpa [feed] using hinit
  have hread {u : ValueTree} (hd : u.toReply.depth ≤ limit) {tail : Bytes}
      (hu : RespReader.init.unread feed = u.encode ++ tail) :
      (RespReader.init.readResponse limit feed).1 = .ok u.value ∧
        (RespReader.init.readResponse limit feed).2.1.unread
          (RespReader.init.readResponse limit feed).2.2 = tail := by
    have hout := u.outcome_toReply limit hd
    obtain ⟨hres, -, hleft, -⟩ := RespReader.readResponse_quiet hok hquiet hu
    have hclean : u.toReply.leftover limit = [] := Reply.clean_of_isValue ⟨u.value, hout⟩
    rw [hclean, List.nil_append] at hleft
    exact ⟨hres.trans hout, hleft⟩
  obtain ⟨hv, htail⟩ := hread (le_max_left _ _) hunread
  obtain ⟨hv', htail'⟩ := hread (le_max_right _ _) (hunread.trans h)
  exact ⟨Except.ok.inj (hv.symm.trans hv'), htail.symm.trans htail'⟩

/-- The wire form of commands determines the bytes of their arguments. -/
lemma encodeCommands_inj {commandList commandList' : List (List Arg)}
    (h : encodeCommands commandList = encodeCommands commandList') :
    commandList.map rawArgs = commandList'.map rawArgs := by
  have hne (args : List Arg) : encodeCommand args ≠ [] := by simp [encodeCommand]
  induction commandList generalizing commandList' with
  | nil =>
    cases commandList' with
    | nil => rfl
    | cons args' rest' =>
      rw [encodeCommands, encodeCommands, List.flatMap_nil, List.flatMap_cons] at h
      exact absurd (List.append_eq_nil_iff.mp h.symm).1 (hne args')
  | cons args rest ih =>
    cases commandList' with
    | nil =>
      rw [encodeCommands, encodeCommands, List.flatMap_nil, List.flatMap_cons] at h
      exact absurd (List.append_eq_nil_iff.mp h).1 (hne args)
    | cons args' rest' =>
      rw [encodeCommands, encodeCommands, List.flatMap_cons, List.flatMap_cons,
        ← encode_commandTree, ← encode_commandTree] at h
      obtain ⟨hvalue, hrest⟩ := ValueTree.encode_append_inj h
      rw [value_commandTree, value_commandTree] at hvalue
      rw [List.map_cons, List.map_cons, rawArgs_eq_of_commandValue hvalue, ih hrest]

/-- **Commands cannot be confused on the wire.**  However the wire form of some commands is cut
into chunks, one `read_response` for each command gives the bytes of its arguments, and nothing
is left over; and commands with the same wire form have the same arguments. -/
theorem encodeCommands_readable (commandList : List (List Arg)) (limit : ℕ)
    (hstack : 2 ≤ limit) :
    (∀ chunks : List Chunk, chunks.flatMap Chunk.bytes = encodeCommands commandList →
      (readSuccessively (RespReader.readResponse limit) commandList.length .init
          (chunks.map .chunk)).1 = commandList.map (fun args => .ok (commandValue args)) ∧
        (readSuccessively (RespReader.readResponse limit) commandList.length .init
            (chunks.map .chunk)).2.1.unread
          (readSuccessively (RespReader.readResponse limit) commandList.length .init
            (chunks.map .chunk)).2.2 = []) ∧
      ∀ commandList', encodeCommands commandList = encodeCommands commandList' →
        commandList.map rawArgs = commandList'.map rawArgs := by
  constructor
  · intro chunks hcut
    have hok : respBuffer.Ok RespReader.init := ⟨le_rfl, by simp [RespReader.init]⟩
    have hlen : commandList.length ≤ (commandList.map commandTree).length := by
      rw [List.length_map]
    have hunread : RespReader.init.unread (chunks.map .chunk) =
        (commandList.map commandTree).flatMap ValueTree.encode := by
      rw [RespReader.unread_init_map_chunk, hcut, encodeCommands, List.flatMap_map]
      simp only [encode_commandTree]
    have hdepth : ∀ t ∈ commandList.map commandTree, t.toReply.depth ≤ limit := by
      intro t ht
      obtain ⟨args, -, rfl⟩ := List.mem_map.mp ht
      exact (depth_commandTree_le args).trans hstack
    obtain ⟨hres, hleft⟩ := readSuccessively_values (commandList.map commandTree) _ hlen hdepth
      hok (Feed.quiet_map_chunk chunks) hunread
    constructor
    · rw [hres, List.take_of_length_le (by rw [List.length_map]), List.map_map]
      simp only [Function.comp_def, value_commandTree]
    · rw [hleft, List.drop_of_length_le (by rw [List.length_map])]
      rfl
  · intro commandList' h
    exact encodeCommands_inj h

/-- An argument that looks like a command. -/
theorem encodeCommands_readable_nested :
    (readSuccessively (RespReader.readResponse 2) 1 .init
        ([⟨encodeCommand [.bytes [42, 48, 13, 10]], by simp [encodeCommand]⟩].map .chunk)).1 =
      [.ok (.list [.bytes [42, 48, 13, 10]])] ∧
    (readSuccessively (RespReader.readResponse 2) 1 .init
        ([⟨encodeCommand [.bytes [42, 48, 13, 10]],
          by simp [encodeCommand]⟩].map .chunk)).2.1.unread
      (readSuccessively (RespReader.readResponse 2) 1 .init
        ([⟨encodeCommand [.bytes [42, 48, 13, 10]], by simp [encodeCommand]⟩].map .chunk)).2.2 =
      [] :=
  (encodeCommands_readable [[.bytes [42, 48, 13, 10]]] 2 le_rfl).1
    [⟨encodeCommand [.bytes [42, 48, 13, 10]], by simp [encodeCommand]⟩] (by simp [encodeCommands])

end KacheDB

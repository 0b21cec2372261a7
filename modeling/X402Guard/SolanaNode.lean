/-
What the Solana routes rely on outside of the proxy, as its documentation has
it: the replies of an RPC node, and the addresses that the chain derives.  What
they read of a truthful node is what it says of the chain, and what they derive
is what the chain finds.
-/
import X402Guard.Base64
import X402Guard.ProgramAddress
import X402Guard.SolanaRoutes
import X402Guard.VaultChanges

namespace X402Guard

open Borsh (Holds serialize)
open PositionalNotation (convert)
open ProgramAddress (findProgramAddress)

/-- A key as text, in base 58; the zeros in front are written as ones. -/
def Pubkey.text (key : Pubkey) : String :=
  String.ofList ((convert 256 58 (key.bytes.map UInt8.toNat)).map fun d =>
    "123456789ABCDEFGHJKLMNPQRSTUVWXYZabcdefghijkmnopqrstuvwxyz".toList.getD d
      '1')

theorem encodePubkey_eq_text (key : Pubkey) :
    SolanaRpc.encodePubkey key = key.text := by
  rw [← String.toList_inj, SolanaRpc.encodePubkey, SolanaRpc.toList_bs58Encode,
    Pubkey.text, String.toList_ofList]
  rfl

theorem decodePubkey_eq_ok_iff_text {text : String} {key : Pubkey} :
    SolanaRpc.decodePubkey text = .ok key ↔ text = key.text := by
  obtain ⟨hkeys, htexts, _⟩ := SolanaRpc.encodePubkey_decodes
  rw [← encodePubkey_eq_text]
  constructor
  · exact fun h => (htexts text key h).symm
  · rintro rfl
    exact (hkeys key).2.2.2

theorem Pubkey.text_inj {key key' : Pubkey} (h : key.text = key'.text) :
    key = key' := by
  have hdecode := decodePubkey_eq_ok_iff_text.mpr (rfl : key.text = key.text)
  rw [h, decodePubkey_eq_ok_iff_text.mpr rfl] at hdecode
  exact (Except.ok.inj hdecode).symm

/-! ### JSON-RPC -/

/-- The object has the member, and no name twice. -/
def Value.Has (value : Value) (name : String) (member : Value) : Prop :=
  ∃ fields, value = .object fields ∧ (fields.map Prod.fst).Nodup ∧
    (name, member) ∈ fields

/-- A request for a method with parameters. -/
structure Asks (method : String) (params : List Value) (request : Value) :
    Prop where
  version : request.Has "jsonrpc" (.string "2.0")
  id : ∃ id, request.Has "id" id
  method : request.Has "method" (.string method)
  params : request.Has "params" (.array params)

/-- The reply to a request: none, an error of the server or of the method, or a
result. -/
inductive RpcAnswers (Result : Value → Prop) : HttpReply → Prop
  | notSent (cause : String) : RpcAnswers Result (.notSent cause)
  | noResponse (cause : String) : RpcAnswers Result (.noResponse cause)
  | failed {status : ℕ} {body : Option Value}
      (hstatus : ¬ (200 ≤ status ∧ status < 300)) :
      RpcAnswers Result (.response status body)
  | unreadable {status : ℕ} : RpcAnswers Result (.response status none)
  | error {status : ℕ} {body error : Value} (herror : body.Has "error" error)
      (hnull : error ≠ .null) : RpcAnswers Result (.response status (some body))
  | result {status : ℕ} {body value : Value}
      (hvalue : body.Has "result" value)
      (hnone : ∀ error, ¬ body.Has "error" error) (hresult : Result value) :
      RpcAnswers Result (.response status (some body))

/-- The result of `getAccountInfo` in base64; it is null without an account. -/
inductive AccountInfo (held : Option (List UInt8) → Prop) : Value → Prop
  | absent {result : Value} (hvalue : result.Has "value" .null)
      (hheld : held none) : AccountInfo held result
  | present {result value : Value} {data : List UInt8}
      (hvalue : result.Has "value" value)
      (hdata : value.Has "data"
        (.array [.string (Base64.encode data), .string "base64"]))
      (hheld : held (some data)) : AccountInfo held result

/-- The result of `getTokenAccountBalance`. -/
inductive TokenBalance (held : ℕ → Prop) : Value → Prop
  | present {result value : Value} {amount : ℕ}
      (hvalue : result.Has "value" value)
      (hamount : value.Has "amount" (.string (toString amount)))
      (hheld : held amount) : TokenBalance held result

/-- An RPC node: its reply to a request, from a state of the chain. -/
abbrev Node := Ledger → (url : String) → Value → (seed : ℕ) → HttpReply

/-- What the account at the address of a vault holds.  Only the program could
put data there. -/
def Ledger.AccountData (ledger : Ledger) (address : Pubkey)
    (data? : Option (List UInt8)) : Prop :=
  match ledger.vault? address with
  | some vault => ∃ data, data? = some data ∧
      Holds data VaultState.discriminatorLen (serialize vault)
  | none => data? = none ∨ data? = some []

def Ledger.TokenAmount (ledger : Ledger) (address : Pubkey) (amount : ℕ) :
    Prop :=
  ∃ account, ledger.tokens.find? address = some account ∧
    account.amount.toNat = amount

/-- What a node says of a vault and of a balance is so.  It may also fail. -/
structure Node.Truthful (solana : Solana) (node : Node) : Prop where
  account : ∀ (ledger : Ledger) url owner request seed,
    Asks "getAccountInfo" [.string (solana.findVaultAddress owner).1.text,
      .object [("encoding", .string "base64")]] request →
    RpcAnswers (AccountInfo
      (ledger.AccountData (solana.findVaultAddress owner).1))
      (node ledger url request seed)
  balance : ∀ (ledger : Ledger) url (address : Pubkey) request seed,
    Asks "getTokenAccountBalance" [.string address.text] request →
    RpcAnswers (TokenBalance (ledger.TokenAmount address))
      (node ledger url request seed)

/-- `STANDARD.decode` decodes what is encoded. -/
def SolanaExternals.DecodesBase64 (ext : SolanaExternals) : Prop :=
  ∀ bytes, ext.decodeBase64 (Base64.encode bytes) = some bytes

section Reading

variable {ext : SolanaExternals} {value member : Value} {name : String}
variable {reply : HttpReply}

theorem asks_rpcRequest (method : String) (params : List Value) :
    Asks method params (SolanaRpc.rpcRequest method params) := by
  have hnames : ["jsonrpc", "id", "method", "params"].Nodup := by
    decide
  exact {
    version := ⟨_, rfl, hnames, by simp⟩
    id := ⟨.ofNat 1, _, rfl, hnames, by simp⟩
    method := ⟨_, rfl, hnames, by simp⟩
    params := ⟨_, rfl, hnames, by simp⟩ }

theorem asks_accountInfo (address : Pubkey) :
    Asks "getAccountInfo"
      [.string address.text, .object [("encoding", .string "base64")]]
      (SolanaRpc.accountInfoRequest (SolanaRpc.encodePubkey address)) := by
  rw [encodePubkey_eq_text]
  exact asks_rpcRequest _ _

theorem asks_tokenBalance (address : Pubkey) :
    Asks "getTokenAccountBalance" [.string address.text]
      (SolanaRpc.tokenBalanceRequest (SolanaRpc.encodePubkey address)) := by
  rw [encodePubkey_eq_text]
  exact asks_rpcRequest _ _

/-- A member is the only one of its name. -/
theorem exists_split {fields : List (String × Value)}
    (hnames : (fields.map Prod.fst).Nodup) (h : (name, member) ∈ fields) :
    ∃ before after, fields = before ++ (name, member) :: after ∧
      (∀ field ∈ before, field.1 ≠ name) ∧ ∀ field ∈ after, field.1 ≠ name := by
  obtain ⟨before, after, rfl⟩ := List.append_of_mem h
  rw [List.map_append, List.map_cons, List.nodup_middle, List.nodup_cons,
    ← List.map_append] at hnames
  have hothers : ∀ field ∈ before ++ after, field.1 ≠ name :=
    fun field hfield hname =>
      hnames.1 (List.mem_map.mpr ⟨field, hfield, hname⟩)
  exact ⟨before, after, rfl,
    fun field hfield => hothers field (List.mem_append_left _ hfield),
    fun field hfield => hothers field (List.mem_append_right _ hfield)⟩

theorem Value.Has.get (h : value.Has name member) :
    value.get name = some member := by
  obtain ⟨fields, rfl, hnames, hmem⟩ := h
  obtain ⟨before, after, rfl, _, hafter⟩ := exists_split hnames hmem
  refine List.lookup_eq_some_iff.mpr ⟨after.reverse, before.reverse, ?_, ?_⟩
  · simp
  · intro field hfield
    simpa using (hafter field (List.mem_reverse.mp hfield)).symm

theorem Value.Has.ne_null (h : value.Has name member) : value ≠ .null := by
  obtain ⟨fields, rfl, _⟩ := h
  exact Value.noConfusion

theorem structField_of_mem {fields : List (String × Value)}
    (hnames : (fields.map Prod.fst).Nodup) (h : (name, member) ∈ fields) :
    SolanaRpc.structField fields name = some (some member) := by
  obtain ⟨before, after, rfl, hbefore, hafter⟩ := exists_split hnames h
  have hnone : ∀ {others : List (String × Value)},
      (∀ field ∈ others, field.1 ≠ name) →
      others.filter (fun field => field.1 = name) = [] := by
    intro others hothers
    rw [List.filter_eq_nil_iff]
    simpa using hothers
  rw [SolanaRpc.structField, List.filter_append, hnone hbefore,
    List.filter_cons_of_pos (by simp), hnone hafter]
  rfl

theorem structField_of_not_mem {fields : List (String × Value)}
    (h : ∀ member, (name, member) ∉ fields) :
    SolanaRpc.structField fields name = some none := by
  have hfilter : fields.filter (fun field => field.1 = name) = [] := by
    rw [List.filter_eq_nil_iff]
    rintro ⟨field, member⟩ hmem
    rw [decide_eq_true_eq]
    rintro rfl
    exact h member hmem
  rw [SolanaRpc.structField, hfilter]

theorem optional_of_ne_null {α : Type} (decode : Value → Option α)
    (h : value ≠ .null) :
    SolanaRpc.optional decode value = (decode value).map some := by
  cases value <;> first | rfl | exact absurd rfl h

theorem decodeRpcResponse_error {body error : Value}
    (herror : body.Has "error" error) (hnull : error ≠ .null) :
    ∀ response ∈ SolanaRpc.decodeRpcResponse body, response.error ≠ none := by
  obtain ⟨fields, rfl, hnames, hmem⟩ := herror
  intro response hresponse
  simp only [SolanaRpc.decodeRpcResponse, structField_of_mem hnames hmem,
    Option.bind_eq_bind, Option.bind_some, Option.getD_some, Option.pure_def,
    optional_of_ne_null _ hnull, Option.mem_def, Option.bind_eq_some_iff,
    Option.map_eq_some_iff, Option.some.injEq] at hresponse
  obtain ⟨_, _, _, _, _, ⟨rpcError, _, rfl⟩, rfl⟩ := hresponse
  exact Option.some_ne_none rpcError

theorem decodeRpcResponse_result {body result : Value}
    (hresult : body.Has "result" result) (hnull : result ≠ .null)
    (hnone : ∀ error, ¬ body.Has "error" error) :
    SolanaRpc.decodeRpcResponse body = some ⟨some result, none⟩ := by
  obtain ⟨fields, rfl, hnames, hmem⟩ := hresult
  have hno : ∀ error, ("error", error) ∉ fields := fun error herror =>
    hnone error ⟨fields, rfl, hnames, herror⟩
  simp only [SolanaRpc.decodeRpcResponse, structField_of_mem hnames hmem,
    structField_of_not_mem hno, Option.bind_eq_bind, Option.bind_some,
    Option.getD_some, Option.getD_none, optional_of_ne_null _ hnull,
    Option.map_some]
  rfl

/-- What is read of a reply is its result. -/
theorem rpcResult_of_answers {Result : Value → Prop}
    (h : RpcAnswers Result reply) {result? : Option Value}
    (hread : SolanaRpc.rpcResult ext reply = .ok result?) :
    ∃ result, Result result ∧ (result ≠ .null → result? = some result) := by
  cases h with
  | notSent cause => cases hread
  | noResponse cause => cases hread
  | failed hstatus =>
      simp only [SolanaRpc.rpcResult, except_bind_eq_ok,
        rejectIf_eq_ok_iff] at hread
      obtain ⟨_, hok, _⟩ := hread
      exact absurd hstatus hok
  | unreadable =>
      simp only [SolanaRpc.rpcResult, except_bind_eq_ok, okOr_eq_ok_iff,
        Option.bind_none] at hread
      obtain ⟨_, _, _, ⟨⟩, _⟩ := hread
  | error herror hnull =>
      simp only [SolanaRpc.rpcResult, except_bind_eq_ok, okOr_eq_ok_iff,
        Option.bind_some] at hread
      obtain ⟨_, _, response, hresponse, hread⟩ := hread
      have hsome := decodeRpcResponse_error herror hnull response hresponse
      split at hread
      · cases hread
      · exact absurd ‹response.error = none› hsome
  | result hvalue hnone hresult =>
      refine ⟨_, hresult, fun hnull => ?_⟩
      simp only [SolanaRpc.rpcResult, except_bind_eq_ok, okOr_eq_ok_iff,
        Option.bind_some, decodeRpcResponse_result hvalue hnull hnone] at hread
      obtain ⟨_, _, _, ⟨⟩, ⟨⟩⟩ := hread
      rfl

/-- What is read of an account is what it holds. -/
theorem readAccountInfo_held {held : Option (List UInt8) → Prop}
    (hbase64 : ext.DecodesBase64) (h : RpcAnswers (AccountInfo held) reply)
    {data? : Option (List UInt8)}
    (hread : SolanaRpc.readAccountInfo ext reply = .ok data?) :
    held data? := by
  obtain ⟨result?, hresult?, hbytes⟩ := except_bind_eq_ok.mp hread
  obtain ⟨result, hresult, hsome⟩ := rpcResult_of_answers h hresult?
  cases hresult with
  | absent hvalue hheld =>
      rw [hsome hvalue.ne_null] at hbytes
      simp only [SolanaRpc.accountBytes, hvalue.get] at hbytes
      cases hbytes
      exact hheld
  | present hvalue hdata hheld =>
      rw [hsome hvalue.ne_null] at hbytes
      have hget := hdata.get
      obtain ⟨fields, rfl, _⟩ := hdata
      simp only [SolanaRpc.accountBytes, hvalue.get, hget, Option.bind_some,
        SolanaRpc.asArray, Value.asStr, except_bind_eq_ok,
        okOr_eq_ok_iff] at hbytes
      obtain ⟨_, ⟨⟩, _, htext, data, hdata, ⟨⟩⟩ := hbytes
      cases htext
      rw [hbase64, Option.some.injEq] at hdata
      rw [← hdata]
      exact hheld

/-- A number is parsed as itself if it fits. -/
theorem parseU64_toString (n : ℕ) :
    parseU64 (toString n) = if n ≤ u64Max then some n else none := by
  have hdigits : ∀ c ∈ Nat.toDigits 10 n, c.isDigit = true := fun c hc =>
    Nat.isDigit_of_mem_toDigits (by decide) (by decide) hc
  have hvalue : Nat.ofDigitChars 10 (Nat.toDigits 10 n) 0 = n :=
    Nat.ofDigitChars_ten_toDigits
  have hne : Nat.toDigits 10 n ≠ [] := Nat.toDigits_ne_nil
  rw [parseU64, toList_toString]
  generalize Nat.toDigits 10 n = digits at hdigits hvalue hne
  rw [← hvalue]
  dsimp only
  split
  · exact absurd (hdigits '+' List.mem_cons_self) (by decide)
  · refine if_neg ?_
    rw [List.isEmpty_iff, not_or, not_not, List.all_eq_true]
    exact ⟨hne, hdigits⟩

theorem readTokenBalance_held {held : ℕ → Prop}
    (h : RpcAnswers (TokenBalance held) reply) {amount : ℕ}
    (hread : SolanaRpc.readTokenBalance ext reply = .ok amount) :
    held amount := by
  obtain ⟨result?, hresult?, htoken⟩ := except_bind_eq_ok.mp hread
  obtain ⟨result, hresult, hsome⟩ := rpcResult_of_answers h hresult?
  cases hresult with
  | present hvalue hamount hheld =>
      simp only [SolanaRpc.tokenAmount, hsome hvalue.ne_null,
        except_bind_eq_ok, okOr_eq_ok_iff] at htoken
      obtain ⟨_, ⟨⟩, text, htext, hparsed⟩ := htoken
      simp only [hvalue.get, hamount.get, Option.bind_some, Value.asStr,
        Option.some.injEq] at htext
      rw [← htext, parseU64_toString] at hparsed
      split at hparsed
      · cases hparsed
        exact hheld
      · cases hparsed

end Reading

/-! ### Addresses -/

/-- `declare_id!`. -/
def vaultProgramId : Pubkey where
  bytes := [166, 113, 54, 104, 68, 221, 172, 140, 18, 129, 47, 183, 170, 10, 35,
    107, 25, 103, 88, 26, 141, 32, 124, 15, 159, 125, 132, 138, 119, 66, 50, 62]
  length_eq := rfl

example : SolanaRpc.decodePubkey
    "CCiocBgtgKu4x2JfiRgKaYTkt4HVGonEmperieZ3VXfj" = .ok vaultProgramId := by
  decide

/-- `VAULT_SEED`. -/
def vaultSeed : List UInt8 := utf8Bytes "vault"

/-- The SPL Token program. -/
def tokenProgramId : Pubkey where
  bytes := [6, 221, 246, 225, 215, 101, 161, 147, 217, 203, 225, 70, 206, 235,
    121, 172, 28, 180, 133, 237, 95, 91, 55, 145, 58, 140, 245, 133, 126, 255,
    0, 169]
  length_eq := rfl

/-- The Associated Token Account program. -/
def ataProgramId : Pubkey where
  bytes := [140, 151, 37, 143, 78, 36, 137, 241, 187, 61, 16, 41, 20, 142, 13,
    131, 11, 90, 19, 153, 218, 255, 16, 132, 4, 142, 123, 216, 219, 233, 248,
    89]
  length_eq := rfl

/-- The configuration names the program, and the chain derives addresses with
the same hash and the same curve; every owner and every wallet has one. -/
structure Deployed (ext : SolanaExternals) (config : SolanaRoute.StatusConfig)
    (solana : Solana) : Prop where
  named : ∀ text ∈ config.solanaProgramId, text = vaultProgramId.text
  vault : ∀ owner : Pubkey,
    findProgramAddress ext.sha256 ext.isOnEd25519Curve
      [vaultSeed, owner.bytes] vaultProgramId.bytes =
        some (solana.findVaultAddress owner)
  token : ∀ wallet mint : Pubkey, ∃ bump,
    findProgramAddress ext.sha256 ext.isOnEd25519Curve
      [wallet.bytes, tokenProgramId.bytes, mint.bytes] ataProgramId.bytes =
        some (solana.associatedTokenAddress wallet mint, bump)

section Derivation

variable {ext : SolanaExternals} {config : SolanaRoute.StatusConfig}
variable {solana : Solana}

theorem decodePubkey_tokenProgramId : SolanaRpc.decodePubkey
    "TokenkegQfeZyiNwAJbNbGKPFXCWuBvf9Ss623VQ5DA" = .ok tokenProgramId := by
  decide

theorem decodePubkey_ataProgramId : SolanaRpc.decodePubkey
    "ATokenGPvbdGVxr1b2hvZbsiqW5xWH25efTNsLJA8knL" = .ok ataProgramId := by
  decide

/-- The search of the proxy goes on to the bump 0. -/
theorem findOffCurve_of_find {seeds : List (List UInt8)} {programId : Pubkey}
    {found : Pubkey × UInt8} (hcount : seeds.length < 16)
    (hshort : ∀ seed ∈ seeds, seed.length ≤ 32)
    (h : findProgramAddress ext.sha256 ext.isOnEd25519Curve seeds
      programId.bytes = some found) :
    (SolanaRpc.findOffCurve ext fun bump =>
      SolanaRpc.sha256PdaSeeds ext (seeds ++ [[bump]]) programId) =
        some found := by
  have hbumps : SolanaRpc.bumps = ProgramAddress.bumps ++ [0] := by
    rw [SolanaRpc.bumps, List.range_eq_range', List.range'_succ,
      List.reverse_cons, List.map_append]
    rfl
  rw [SolanaRpc.findOffCurve, hbumps]
  exact ProgramAddress.findSome?_of_find hcount hshort h [0]

theorem deriveVaultPda_eq (h : Deployed ext config solana) (owner : Pubkey) :
    SolanaRpc.deriveVaultPda ext owner vaultProgramId =
      .ok (solana.findVaultAddress owner) := by
  have hseed : vaultSeed.length = 5 := by
    decide
  have hshort : ∀ seed ∈ [vaultSeed, owner.bytes], seed.length ≤ 32 := by
    simp [hseed, owner.length_eq]
  have hfound := findOffCurve_of_find (by simp) hshort (h.vault owner)
  exact congrArg (okOr _) hfound

theorem deriveAta_eq (h : Deployed ext config solana) (wallet mint : Pubkey) :
    SolanaRpc.deriveAta ext wallet mint =
      .ok (solana.associatedTokenAddress wallet mint) := by
  have hshort : ∀ seed ∈ [wallet.bytes, tokenProgramId.bytes, mint.bytes],
      seed.length ≤ 32 := by
    simp [wallet.length_eq, mint.length_eq, tokenProgramId.length_eq]
  obtain ⟨bump, htoken⟩ := h.token wallet mint
  have hfound := findOffCurve_of_find (by simp) hshort htoken
  simp only [SolanaRpc.deriveAta, decodePubkey_tokenProgramId,
    decodePubkey_ataProgramId, SolanaRpc.ok_bind]
  refine except_bind_eq_ok.mpr ⟨_, congrArg (okOr _) hfound, rfl⟩

end Derivation

end X402Guard

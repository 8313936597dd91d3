import SQLess.BlockProducer.Objects

/-!
Every handler of `blockproducer/metastate.go` over pointers implements the one over values, from a
state whose dirty layer owns its accounts.
-/

namespace SQLess.BlockProducer.Objects

open Lib Program FiniteMap MetaState

namespace State

variable (o : State)

section

variable (k : AccountAddress)
include k

lemma values_dirty_get :
    o.values.dirty.accounts.get k = (o.dirty.accounts.get k).map (Option.map o.mem.account) :=
  get_map ..

lemma values_readonly_get :
    o.values.readonly.accounts.get k = (o.readonly.accounts.get k).map o.mem.account :=
  get_map ..

lemma values_lookupAccount :
    o.values.lookupAccount k = (o.lookupAccount k).map (Option.map o.mem.account) := by
  unfold MetaState.lookupAccount lookupAccount
  rw [values_dirty_get, values_readonly_get]
  cases o.dirty.accounts.get k with
  | some => rfl
  | none => cases o.readonly.accounts.get k <;> rfl

lemma values_loadAccountObject :
    o.values.loadAccountObject k = (o.lookupAccount k).join.map o.mem.account := by
  unfold MetaState.loadAccountObject lookupAccount
  rw [values_dirty_get, values_readonly_get]
  cases o.dirty.accounts.get k with
  | some => rfl
  | none => cases o.readonly.accounts.get k <;> rfl

end

lemma values_loadSQLChainObject (k) :
    o.values.loadSQLChainObject k = (o.findDatabase k).map o.mem.databases.read := by
  unfold MetaState.loadSQLChainObject findDatabase values Layers.values
  simp only [get_map]
  cases o.dirty.databases.get k with
  | some => rfl
  | none => rfl

lemma account_of_dirty {o : State} (found : o.dirty.accounts.get k = some (some r))
    (shown : o.values.dirty.accounts.get k = some (some v)) : o.mem.account r = v := by
  rw [o.values_dirty_get, found] at shown
  simpa using shown

lemma allocDatabase_read (v) : (o.allocDatabase v).mem.databases.read o.mem.databases.size = v :=
  Heap.read_alloc_new ..

lemma writeDatabase_alloc (v v') :
    (o.allocDatabase v).writeDatabase o.mem.databases.size v' = o.allocDatabase v' := by
  simp [writeDatabase, allocDatabase]

lemma store_copies (k addr v v' a a') :
    (((((o.allocDatabase v).allocAccount a).writeDatabase o.mem.databases.size v').writeAccount
      (.object o.mem.accounts.size) a').storeDatabase k o.mem.databases.size).storeAccount addr
        (.object o.mem.accounts.size) = (o.putDatabase k v').putAccount addr a' := by
  simp [putDatabase, putAccount, allocDatabase, allocAccount, writeDatabase, writeAccount,
    storeDatabase, storeAccount, Memory.setAccount]

end State

variable {start : State}

lemma dirtyAccount_bind {next' : Account → MetaProgram α}
    (tail : ∀ o r, Good start o → o.dirty.accounts.get k = some (some r) →
      Implemented (Good start) State.values (next r o) (next' (o.mem.account r) o.values)) :
    Implements (Good start) State.values (dirtyAccount k missing >>= next)
      (BlockProducer.dirtyAccount k missing >>= next') := by
  intro o good
  simp only [dirtyAccount, BlockProducer.dirtyAccount, bind_run, get_run, o.values_dirty_get,
    o.values_readonly_get]
  rcases found : o.dirty.accounts.get k with _ | _ | r
  · rcases below : o.readonly.accounts.get k with _ | src
    · exact ⟨rfl, rfl, good⟩
    · obtain ⟨kept, same⟩ := good.putAccount k (o.mem.account src)
      have stored := tail _ (.object o.mem.accounts.size) kept
        (by simp [State.putAccount, State.storeAccount])
      rw [same] at stored
      have copied : (o.putAccount k (o.mem.account src)).mem.account
          (.object o.mem.accounts.size) = o.mem.account src := Heap.read_alloc_new ..
      rw [copied] at stored
      exact stored
  · exact rfl
  · exact tail o r good found

lemma loadSQLChainObject_bind {next' : MetaState → MetaProgram α}
    (absent : ∀ o, Good start o → o.values.loadSQLChainObject k = none →
      Implemented (Good start) State.values (next none o) (next' o.values o.values))
    (present : ∀ o v, Good start o → o.values.loadSQLChainObject k = some v →
      Implemented (Good start) State.values (next (some o.mem.databases.size) (o.allocDatabase v))
      (next' o.values o.values)) :
    Implements (Good start) State.values (loadSQLChainObject k >>= next)
      (Program.get >>= next') := by
  intro o good
  simp only [loadSQLChainObject, bind_run, get_run]
  have shown := o.values_loadSQLChainObject k
  rcases found : o.findDatabase k with _ | r
  · rw [found] at shown
    exact absent o good shown
  · rw [found] at shown
    exact present o _ good shown

lemma loadAccountObject_run (k o) : loadAccountObject k o =
      match o.values.loadAccountObject k with
      | none => .ok (.ok none, o)
      | some v => .ok (.ok (some (.object o.mem.accounts.size)), o.allocAccount v) := by
  rw [o.values_loadAccountObject]
  simp only [loadAccountObject, get_bind_run]
  rcases (o.lookupAccount k).join with _ | r <;> rfl

lemma adjustAccountToken_implements (change context k amount tokenType) :
    Implements (Good start) State.values (adjustAccountToken change context k amount tokenType)
      (BlockProducer.adjustAccountToken change context k amount tokenType) := by
  refine dirtyAccount_bind fun o r good found => .orPanic_bind fun token _ => ?_
  refine Implemented.orFail_bind good rfl fun balance => ?_
  obtain ⟨kept, same⟩ := good.writeAccount found _
  exact ⟨rfl, same, kept⟩

lemma increaseNonce_implements (addr) : Implements (Good start) State.values (increaseNonce addr)
      (BlockProducer.increaseNonce addr) := by
  refine dirtyAccount_bind fun o r good found => ?_
  obtain ⟨kept, same⟩ := good.writeAccount found _
  exact ⟨rfl, same, kept⟩

lemma refundProvider_implements (sender height) :
    Implements (Good start) State.values (refundProvider sender height)
      (BlockProducer.refundProvider sender height) := by
  refine .ite (.get fun o good => ?_) (.pure ())
  rcases o.values.loadProviderObject sender with _ | po
  · exact .pure good rfl ()
  · have refunded : Implements (Good start) State.values
        (increaseAccountStableBalance sender po.deposit)
        (BlockProducer.increaseAccountStableBalance sender po.deposit) :=
      adjustAccountToken_implements _ _ _ _ _
    exact refunded.bind (fun _ => .modify fun o good => good.deleteProvider sender) o good

variable (env : Env)

lemma updateProviderList_implements (tx height) :
    Implements (Good start) State.values (updateProviderList env tx height)
      (BlockProducer.updateProviderList env tx height) := by
  unfold updateProviderList BlockProducer.updateProviderList
  rcases pubKeyHash env tx.verifier.signee with error | sender
  · exact .fail _
  · refine (refundProvider_implements sender height).bind fun _ => ?_
    refine (adjustAccountToken_implements safeSub _ sender _ _).bind fun _ o good => ?_
    obtain ⟨kept, same⟩ := good.putProvider sender (newProviderProfile env tx sender)
    exact ⟨rfl, same, kept⟩

variable {o : State} {sender receiver : AccountAddress}

lemma deleteProviders (good : Good start o) (miners : List MinerInfo) :
    Good start (miners.foldl (fun o miner => o.deleteProviderObject miner.address) o) ∧
      (miners.foldl (fun o miner => o.deleteProviderObject miner.address) o).values =
        miners.foldl (fun s miner => s.deleteProviderObject miner.address) o.values := by
  induction miners generalizing o with
  | nil => exact ⟨good, rfl⟩
  | cons miner rest ih =>
    obtain ⟨kept, same⟩ := good.deleteProvider miner.address
    rw [List.foldl_cons, List.foldl_cons, ← same]
    exact ih kept

lemma storeProfile_implements (profile : SQLChainProfile) :
    Implements (Good start) State.values (storeProfile profile)
      (Program.modify (BlockProducer.storeProfile profile)) := by
  intro o good
  obtain ⟨opened, account⟩ := good.putAccount profile.address (Account.new profile.address)
  obtain ⟨stored, database⟩ := opened.putDatabase profile.id profile
  obtain ⟨kept, same⟩ := deleteProviders stored profile.miners
  rw [database, account] at same
  exact ⟨rfl, same, kept⟩

lemma createProfile_implements (tx sender miners) :
    Implements (Good start) State.values (createProfile env tx sender miners)
      (BlockProducer.createProfile env tx sender miners) := by
  refine (Implements.orFail _).bind fun all => ?_
  refine (adjustAccountToken_implements safeSub _ sender all _).bind fun _ => ?_
  refine (Implements.orFail _).bind fun enc => ?_
  refine loadSQLChainObject_bind ?_ ?_
  · intro o good absent
    simp only [absent]
    exact storeProfile_implements _ o good
  · intro o v good found
    obtain ⟨kept, same⟩ := good.allocDatabase v
    simp only [found]
    exact .fail kept same _

lemma matchProvidersWithUser_implements (order tx) :
    Implements (Good start) State.values (matchProvidersWithUser env order tx)
      (BlockProducer.matchProvidersWithUser env order tx) := by
  unfold matchProvidersWithUser BlockProducer.matchProvidersWithUser
  rcases pubKeyHash env tx.verifier.signee with error | sender
  · exact .fail _
  · refine .ite (.fail _) (.ite (.fail _) (.ite (.fail _) (.ite (.fail _) (.get ?_))))
    intro o good
    refine .orFail_bind good rfl fun selected => ?_
    cases selected with
    | none => exact .pure good rfl ()
    | some miners => exact createProfile_implements env tx sender miners o good

lemma updatePermission_implements (tx) :
    Implements (Good start) State.values (updatePermission env tx)
      (BlockProducer.updatePermission env tx) := by
  unfold updatePermission BlockProducer.updatePermission
  rcases pubKeyHash env tx.verifier.signee with error | sender
  · exact .fail _
  · refine loadSQLChainObject_bind ?_ ?_
    · intro o good absent
      simp only [absent]
      exact .fail good rfl _
    · intro o v good found
      obtain ⟨kept, same⟩ := good.allocDatabase v
      simp only [found, get_bind_run, o.allocDatabase_read]
      refine .orFail_bind kept same fun scanned => ?_
      split
      · exact .fail kept same _
      · rw [modify_bind_run, o.writeDatabase_alloc]
        obtain ⟨stored, changed⟩ := good.putDatabase (databaseID tx.header.targetSQLChain)
          { v with users := setPermission tx.header v.users scanned.2 }
        exact ⟨rfl, changed, stored⟩

lemma updateKeys_implements (tx) :
    Implements (Good start) State.values (updateKeys env tx) (BlockProducer.updateKeys env tx) := by
  refine loadSQLChainObject_bind ?_ ?_
  · intro o good absent
    simp only [absent]
    exact .fail good rfl _
  · intro o v good found
    have issued : ∀ v', Implemented (Good start) State.values
        ((Program.modify (·.writeDatabase o.mem.databases.size v') : ObjectProgram Unit)
          (o.allocDatabase v)) ((pure () : MetaProgram Unit) o.values) := by
      intro v'
      obtain ⟨kept, same⟩ := good.allocDatabase v'
      rw [modify_run, o.writeDatabase_alloc]
      exact ⟨rfl, same, kept⟩
    obtain ⟨kept, same⟩ := good.allocDatabase v
    simp only [found, get_bind_run, o.allocDatabase_read]
    generalize v.users.find? _ = entry
    cases entry with
    | none => exact issued _
    | some user =>
      by_cases super : UserPermission.hasSuperPermission user.permission = true
      · simp only [if_pos super]
        exact issued _
      · simp only [if_neg super]
        exact .fail kept same _

lemma updateBilling_implements (tx) : Implements (Good start) State.values (updateBilling env tx)
      (BlockProducer.updateBilling env tx) := by
  refine loadSQLChainObject_bind ?_ ?_
  · intro o good absent
    simp only [absent]
    exact .fail good rfl _
  · intro o v good found
    obtain ⟨kept, same⟩ := good.allocDatabase v
    simp only [found, get_bind_run, o.allocDatabase_read]
    split
    · exact .fail kept same _
    · split
      · exact .pure kept same ()
      · rw [modify_bind_run, o.writeDatabase_alloc]
        split
        · refine .orPanic_bind fun costs _ => ?_
          rw [modify_bind_run, o.writeDatabase_alloc]
          obtain ⟨stored, changed⟩ := good.putDatabase (databaseID tx.header.receiver) _
          exact ⟨rfl, changed, stored⟩
        · obtain ⟨written, shown⟩ := good.allocDatabase _
          exact .fail written shown _

lemma lowerAmount_zero (tx) : lowerAmount 0 tx = tx := by
  induction tx with
  | transfer => simp [lowerAmount]
  | wrapper inner ih => rw [lowerAmount, ih]
  | _ => rfl

lemma settleAmount_eq (t user amount o) : settleAmount t user amount o = o := by
  unfold settleAmount
  split
  · rw [lowerAmount_zero, State.writeTx, Heap.write_read]
  · rfl

lemma transferSQLChainTokenBalance_implements (t transfer) :
    Implements (Good start) State.values (transferSQLChainTokenBalance env t transfer)
      (BlockProducer.transferSQLChainTokenBalance env transfer) := by
  unfold transferSQLChainTokenBalance BlockProducer.transferSQLChainTokenBalance
  rcases transfer.verifier.signee with _ | signee
  · exact .fail _
  rcases hash : pubKeyHash env (some signee) with error | realSender
  · simp only [hash]
    exact .fail _
  simp only [hash]
  refine .ite (.fail _) (loadSQLChainObject_bind ?_ ?_)
  · intro o good absent
    simp only [absent]
    exact .fail good rfl _
  · intro o v good found
    obtain ⟨loaded, same⟩ := good.allocDatabase v
    simp only [found, get_bind_run, o.allocDatabase_read]
    split
    · exact .fail loaded same _
    · rw [bind_run, loadAccountObject_run, same]
      rcases paid : o.values.loadAccountObject realSender with _ | paying
      · exact rfl
      · have read : ((o.allocDatabase v).allocAccount paying).mem.account
            (.object (o.allocDatabase v).mem.accounts.size) = paying := Heap.read_alloc_new ..
        obtain ⟨copy, shown⟩ := loaded.allocAccount paying
        rw [same] at shown
        simp only [orPanic_some_bind_run]
        refine .orPanic_bind fun token _ => ?_
        simp only [get_bind_run, read]
        split
        · exact .fail copy shown _
        · generalize v.users.findIdx? _ = entry
          cases entry with
          | none => exact .pure copy shown ()
          | some =>
            refine .orPanic_bind fun user _ => ?_
            rw [modify_bind_run, settleAmount_eq]
            refine .orFail_bind copy shown fun profile => ?_
            obtain ⟨stored, database⟩ :=
              good.putDatabase (databaseID transfer.header.receiver) profile
            obtain ⟨kept, account⟩ := stored.putAccount realSender _
            rw [database, ← o.store_copies _ _ v _ paying] at account
            rw [← o.store_copies _ _ v _ paying] at kept
            exact ⟨rfl, account, kept⟩

lemma copyToDirty_run (good : Good start o) (found : o.lookupAccount k = some (some r)) :
    ∃ r' o', copyToDirty k r (o.dirty.accounts.get k).isSome o = .ok (.ok r', o') ∧
      Good start o' ∧ o'.dirty.accounts.get k = some (some r') ∧
      o'.values = o.values.setDirtyAccount k (o.mem.account r) ∧
      ∀ k' ≠ k, o'.lookupAccount k' = o.lookupAccount k' ∧
        o'.dirty.accounts.get k' = o.dirty.accounts.get k' := by
  unfold State.lookupAccount at found
  rcases dirty : o.dirty.accounts.get k with _ | entry
  · obtain ⟨kept, same⟩ := good.putAccount k (o.mem.account r)
    refine ⟨.object o.mem.accounts.size, o.putAccount k (o.mem.account r), rfl, kept, ?_, same, ?_⟩
    · simp [State.putAccount, State.storeAccount]
    · intro k' different
      have other : (o.putAccount k (o.mem.account r)).dirty.accounts.get k' =
          o.dirty.accounts.get k' := by
        simp [State.putAccount, State.storeAccount, State.allocAccount, different]
      refine ⟨?_, other⟩
      unfold State.lookupAccount
      rw [other]
      rfl
  · rw [dirty] at found
    cases found
    refine ⟨r, o, rfl, good, dirty, ?_, fun _ _ => ⟨rfl, rfl⟩⟩
    have shown : o.values.dirty.accounts.get k = some (some (o.mem.account r)) := by
      rw [o.values_dirty_get, dirty]
      rfl
    rw [setDirtyAccount, insert_of_get shown]

lemma openAccount_bind {next' : MetaProgram α}
    (tail : Implements (Good start) State.values next next') : Implements (Good start) State.values
      (newAccount v >>= fun empty => loadOrStoreAccountObject k empty >>= fun _ => next)
      (BlockProducer.loadOrStoreAccountObject k v >>= fun _ => next') := by
  intro o good
  obtain ⟨unused, same⟩ := good.allocAccount v
  have existing := tail _ unused
  rw [same] at existing
  simp only [newAccount, loadOrStoreAccountObject, BlockProducer.loadOrStoreAccountObject,
    findAccountObject, bind_run, get_run, modify_run, pure_run, o.values_dirty_get,
    o.values_readonly_get]
  have dirty : (o.allocAccount v).dirty = o.dirty := rfl
  have below : (o.allocAccount v).readonly = o.readonly := rfl
  rw [dirty, below]
  have missing : Implemented (Good start) State.values (next (o.putAccount k v))
      (next' (o.values.setDirtyAccount k v)) := by
    obtain ⟨kept, shown⟩ := good.putAccount k v
    rw [← shown]
    exact tail _ kept
  rcases o.dirty.accounts.get k with _ | _ | r
  · rcases o.readonly.accounts.get k with _ | r
    · exact missing
    · exact existing
  · rcases o.readonly.accounts.get k with _ | r
    · exact missing
    · exact existing
  · exact existing

lemma copyToDirty_both (good : Good start o) (different : sender ≠ receiver)
    (payer : o.lookupAccount sender = some (some so))
    (payee : o.lookupAccount receiver = some (some ro)) :
    ∃ so' ro' o₁ o₂, copyToDirty sender so (o.dirty.accounts.get sender).isSome o =
        .ok (.ok so', o₁) ∧
      copyToDirty receiver ro (o.dirty.accounts.get receiver).isSome o₁ = .ok (.ok ro', o₂) ∧
      Good start o₂ ∧ o₂.dirty.accounts.get sender = some (some so') ∧
      o₂.dirty.accounts.get receiver = some (some ro') ∧
      o₂.values = (o.values.setDirtyAccount sender (o.mem.account so)).setDirtyAccount receiver
        (o.mem.account ro) := by
  obtain ⟨so', o₁, copied₁, good₁, dirty₁, same₁, others₁⟩ := copyToDirty_run good payer
  obtain ⟨payee₁, flag⟩ := others₁ receiver different.symm
  obtain ⟨ro', o₂, copied₂, good₂, dirty₂, same₂, others₂⟩ :=
    copyToDirty_run good₁ (payee₁.trans payee)
  -- the copy of the sender leaves the receiver as it was
  have kept : o₁.mem.account ro = o.mem.account ro := by
    have before := o.values_lookupAccount receiver
    have after := o₁.values_lookupAccount receiver
    rw [payee] at before
    rw [payee₁, payee, same₁] at after
    have other : (o.values.setDirtyAccount sender (o.mem.account so)).lookupAccount receiver =
        o.values.lookupAccount receiver := by
      simp [lookupAccount, setDirtyAccount, different.symm]
    rw [other, before] at after
    simpa using after.symm
  rw [flag] at copied₂
  rw [kept, same₁] at same₂
  exact ⟨so', ro', o₁, o₂, copied₁, copied₂, good₂, (others₂ sender different).2.trans dirty₁,
    dirty₂, same₂⟩

lemma setBalance_both (good : Good start o) (different : sender ≠ receiver)
    (payer : o.dirty.accounts.get sender = some (some so))
    (payee : o.dirty.accounts.get receiver = some (some ro)) (token sb rb) :
    Good start (setBalance ro token rb (setBalance so token sb o)) ∧
      (setBalance ro token rb (setBalance so token sb o)).values =
        (o.values.setDirtyAccount sender { o.mem.account so with
          tokenBalance := (o.mem.account so).tokenBalance.set token sb }).setDirtyAccount receiver
            { o.mem.account ro with
              tokenBalance := (o.mem.account ro).tokenBalance.set token rb } := by
  obtain ⟨good₁, same₁⟩ := good.writeAccount payer
    { o.mem.account so with tokenBalance := (o.mem.account so).tokenBalance.set token sb }
  have kept : (setBalance so token sb o).mem.account ro = o.mem.account ro := by
    refine State.account_of_dirty payee ?_
    have shown : (setBalance so token sb o).values.dirty.accounts.get receiver =
        o.values.dirty.accounts.get receiver := by
      rw [setBalance, same₁]
      simp [setDirtyAccount, different.symm]
    rw [shown, o.values_dirty_get, payee]
    rfl
  obtain ⟨good₂, same₂⟩ := good₁.writeAccount payee
    { o.mem.account ro with tokenBalance := (o.mem.account ro).tokenBalance.set token rb }
  rw [same₁] at same₂
  rw [setBalance, kept]
  exact ⟨good₂, same₂⟩

lemma moveAccountToken_implements (different : sender ≠ receiver) (amount tokenType) :
    Implements (Good start) State.values (moveAccountToken sender receiver amount tokenType)
      (BlockProducer.moveAccountToken sender receiver amount tokenType) := by
  refine openAccount_bind (.get fun o good => ?_)
  simp only [o.values_lookupAccount]
  rcases payer : o.lookupAccount sender with _ | _ | so
  · exact .fail good rfl _
  · rcases o.lookupAccount receiver with _ | ro
    · exact .fail good rfl _
    · exact rfl
  rcases payee : o.lookupAccount receiver with _ | _ | ro
  · exact .fail good rfl _
  · exact rfl
  simp only [Option.map_some, orPanic_some_bind_run]
  refine .orPanic_bind fun token _ => ?_
  refine .orFail_bind good rfl fun sb => ?_
  refine .orFail_bind good rfl fun rb => ?_
  obtain ⟨so', ro', o₁, o₂, copied₁, copied₂, good₂, dirty₁, dirty₂, same₂⟩ :=
    copyToDirty_both good different payer payee
  have sent : o₂.mem.account so' = o.mem.account so := by
    refine State.account_of_dirty dirty₁ ?_
    rw [same₂]
    simp [setDirtyAccount, different]
  have received : o₂.mem.account ro' = o.mem.account ro := by
    refine State.account_of_dirty dirty₂ ?_
    rw [same₂]
    simp [setDirtyAccount]
  obtain ⟨kept, same⟩ := setBalance_both good₂ different dirty₁ dirty₂ token sb rb
  simp only [bind_run, copied₁, copied₂]
  refine ⟨rfl, same.trans ?_, kept⟩
  rw [same₂, sent, received]
  simp only [setDirtyAccount, insert_shadow]

lemma transferAccountToken_implements (transfer) :
    Implements (Good start) State.values (transferAccountToken env transfer)
      (BlockProducer.transferAccountToken env transfer) := by
  unfold transferAccountToken BlockProducer.transferAccountToken
  rcases pubKeyHash env transfer.verifier.signee with error | realSender
  · exact .fail _
  · refine .ite (.fail _) ?_
    by_cases nothing : transfer.header.sender = transfer.header.receiver ∨
        transfer.header.amount = 0
    · simp only [if_pos nothing]
      exact .pure ()
    · simp only [if_neg nothing]
      exact moveAccountToken_implements (fun same => nothing (.inl same)) _ _

lemma applyTransaction_implements (order height t) (plain : embedded tx = none) :
    Implements (Good start) State.values (applyTransaction env order height t tx)
      (BlockProducer.applyTransaction env order height tx) := by
  induction tx with
  | transfer tx =>
    exact (transferSQLChainTokenBalance_implements env t tx).handle _
      (transferAccountToken_implements env tx)
  | baseAccount => simp [embedded] at plain
  | provideService tx => exact updateProviderList_implements env tx height
  | createDatabase tx => exact matchProvidersWithUser_implements env order tx
  | updatePermission tx => exact updatePermission_implements env tx
  | issueKeys tx => exact updateKeys_implements env tx
  | updateBilling tx => exact updateBilling_implements env tx
  | wrapper inner ih => exact ih plain

lemma expectedNonce_implements (tx) : Implements (Good start) State.values (expectedNonce env tx)
      (BlockProducer.expectedNonce env tx) := by
  refine .get fun o good => .orPanic_bind fun checked _ => ?_
  rcases checked with error | nonce
  · exact Implements.ite (.fail _) (.pure _) o good
  · exact .pure good rfl nonce

def Plain (o : State) (t : Nat) : Prop :=
  embedded (o.mem.txs.read t) = none ∨
    ∃ next, o.values.nextNonce ((o.mem.txs.read t).getAccountAddress env) = some (.ok next) ∧
      next ≠ (o.mem.txs.read t).getAccountNonce

lemma apply_implemented {env t} (separate : Separate o) (plain : Plain env o t) (order height) :
    Implemented (Good o) State.values (apply env order t height o)
      (BlockProducer.apply env order (o.mem.txs.read t) height o.values) := by
  have good : Good o o := ⟨separate, .refl o⟩
  unfold apply BlockProducer.apply
  rw [get_bind_run]
  rcases plain with plain | ⟨next, found, differs⟩
  · refine (expectedNonce_implements env _).bind (fun nonce => .ite (.fail _) ?_) o good
    exact (applyTransaction_implements env order height t plain).bind
      fun _ => increaseNonce_implements _
  · have checked : expectedNonce env (o.mem.txs.read t) o = .ok (.ok next, o) := by
      simp only [expectedNonce, get_bind_run, found, orPanic_some_bind_run, pure_run]
    have checked' : BlockProducer.expectedNonce env (o.mem.txs.read t) o.values =
        .ok (.ok next, o.values) := by
      simp only [BlockProducer.expectedNonce, get_bind_run, found, orPanic_some_bind_run, pure_run]
    simp only [bind_run, checked, checked', if_pos differs]
    exact .fail good rfl _

end SQLess.BlockProducer.Objects

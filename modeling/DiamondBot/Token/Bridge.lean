import DiamondBot.Near.Runtime

/-!
# Bridge parameters and the outgoing cross-chain message

A chain configuration carries the fee schedule of a destination and the one
account that may report its supply. The outgoing message is the call the
token contract starts on the messaging endpoint, with the fee as its deposit.
-/

set_option autoImplicit false

namespace DiamondBot
open NearRuntime

structure LayerZeroParams where
  destChainId : UInt16
  adapterParams : List UInt8
  fees : ℕ

structure ChainConfig where
  remoteChainId : UInt16
  remoteBridgeAddress : String
  chainName : String
  enabled : Bool
  feeBasisPoints : UInt32
  minFee : ℕ
  maxFee : ℕ
  supplyOracle : Option AccountId

structure BridgePayload where
  fromAccount : AccountId
  toAddress : String
  amount : ℕ

structure LzSend where
  lzEndpoint : AccountId
  destChainId : UInt16
  destAddress : ByteArray
  payload : BridgePayload
  refundAddress : AccountId
  adapterParams : List UInt8
  deposit : ℕ
  gas : ℕ

def lzSend (lzEndpoint : AccountId) (destChainId : UInt16) (destAddress : ByteArray)
    (payload : BridgePayload) (refundAddress : AccountId) (adapterParams : List UInt8)
    (fees : ℕ) : LzSend :=
  ⟨lzEndpoint,destChainId,destAddress,payload,refundAddress,adapterParams,fees,5000000000000⟩

end DiamondBot

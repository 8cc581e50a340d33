import FlashblocksRpc.Types
import FlashblocksRpc.Cache
import FlashblocksRpc.Actor
import FlashblocksRpc.Steps
import FlashblocksRpc.Gates
import FlashblocksRpc.Pending
import FlashblocksRpc.Index
import FlashblocksRpc.HashList
import FlashblocksRpc.Redelivery
import FlashblocksRpc.Rpc
import FlashblocksRpc.Races
import FlashblocksRpc.Stream
import FlashblocksRpc.Receipts
import FlashblocksRpc.Sightings
import FlashblocksRpc.Balances
import FlashblocksRpc.Answers
import FlashblocksRpc.Expiry

import Blocknet.Lib.Map
import Blocknet.Lib.Fold
import Blocknet.Lib.Steps
import Blocknet.Lib.Owners
import Blocknet.Lib.Select
import Blocknet.Lib.Pool
import Blocknet.Lib.Binary64
import Blocknet.Primitives
import Blocknet.Script
import Blocknet.Stream
import Blocknet.Governance.Object
import Blocknet.Governance.Parse
import Blocknet.Governance.Store
import Blocknet.Governance.Block
import Blocknet.Governance.Node
import Blocknet.Governance.Views
import Blocknet.Governance.Settled
import Blocknet.Governance.Reorg
import Blocknet.Governance.Load
import Blocknet.Governance.Tally
import Blocknet.Governance.Superblock
import Blocknet.Servicenode.Node
import Blocknet.Servicenode.Mgr
import Blocknet.XBridge.Exchange
import Blocknet.XBridge.Packet
import Blocknet.XBridge.Hub
import Blocknet.Lib.Logged
import Blocknet.XRouter.Packet
import Blocknet.Lib.Split
import Blocknet.XRouter.Names
import Blocknet.XRouter.Server
import Blocknet.Lib.Outputs
import Blocknet.XBridge.Client
import Blocknet.Lib.Tokens
import Blocknet.Script.Num
import Blocknet.Script.Interpreter
import Blocknet.XBridge.Deposit
import Blocknet.XRouter.Consensus
import Blocknet.Servicenode.Collateral
import Blocknet.XBridge.Codec
import Blocknet.XBridge.Accepting
import Blocknet.XBridge.Take
import Blocknet.Governance.Submit
import Blocknet.Script.Spend
import Blocknet.XBridge.DepositScript
import Blocknet.XBridge.Htlc
import Blocknet.Lib.Code
import Blocknet.Script.Sighash
import Blocknet.XBridge.HubRun
import Blocknet.XBridge.SelectUtxos
import Blocknet.XRouter.Payment
import Blocknet.XRouter.Request
import Blocknet.XRouter.Queries

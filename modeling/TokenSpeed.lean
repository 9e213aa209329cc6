import TokenSpeed.Cache.Theorems
import TokenSpeed.Client.Theorems
import TokenSpeed.Coordinator.Theorems
import TokenSpeed.Engine.Theorems
import TokenSpeed.Scheduler.Theorems
import TokenSpeed.Tier.Theorems
import TokenSpeed.Transfer.Theorems
